import ActionCatalog.Document.Reader
import ActionCatalog.Proofs.Reading
import ActionCatalog.Proofs.Registry
import ActionCatalog.Proofs.Settled

/-! The security in effect. Main statement: an operation has the grants of its own requirements if it lists any or
its entry in the document, as it was written, spells them out, and otherwise those of the document. -/
namespace ActionCatalog
open DeclaredSecurity

namespace Tree

/-- What stands under a key of a path of a document. -/
def pathChild? (t : Tree) (path key : String) : Option Tree :=
  ((t.child? "paths").bind (·.child? path)).bind (·.child? key)

/-- An entry that has a security which is not null. -/
def HasSecurity (entry : Tree) : Prop := ∃ v, entry.child? "security" = some v ∧ v.settle? ≠ some .null

/-- An entry that is an object of which no key is refused, and one key names a security that is not null. -/
def SpellsOut (entry : Tree) : Prop := ∃ tag entries, entry = .record tag entries ∧
  (∀ e ∈ entries, (namesSecurity? e.1).isSome) ∧
    ∃ e, entries.filter (fun e => namesSecurity? e.1 = some true) = [e] ∧ e.2.settle? ≠ some .null

/-- Whether an entry of a path is of a kind, under the name of a method in whatever case. -/
def HasEntry (t : Tree) (path method : String) (kind : Tree → Prop) : Prop := ∃ key entry,
  t.pathChild? path key = some entry ∧ Text.asciiLower key = Text.asciiLower method ∧ kind entry

/-- An entry whose keys are texts, of which no more than one names security. -/
def Legible (entry : Tree) : Prop := ∀ tag entries, entry = .record tag entries →
  (∀ e ∈ entries, ∃ name, e.1.settle? = some (.text name)) ∧
    (entries.filter fun e => e.1.asText? = some "security").length ≤ 1

lemma asText?_of_settle? {key : Tree} {name : String} (h : key.settle? = some (.text name)) :
    key.asText? = some name := by
  cases key with
  | text s =>
    cases h
    rfl
  | written w =>
    simp only [settle?,Yaml.settle?,Yaml.resolve?] at h
    repeat' split at h
    all_goals simp_all [asText?]
  | list tag items =>
    simp only [settle?] at h
    split at h
    · cases h
    · obtain ⟨_,-,h⟩ := Option.bind_eq_some_iff.mp h
      cases h
  | record tag entries =>
    simp only [settle?] at h
    split at h
    · cases h
    · obtain ⟨_,-,h⟩ := Option.bind_eq_some_iff.mp h
      cases h
  | _ => cases h

lemma namesSecurity?_of_settle? {key : Tree} {name : String} (h : key.settle? = some (.text name)) :
    namesSecurity? key = some (decide (name = "security")) := by
  simp only [namesSecurity?,h]

/-- Where entries have legible keys, what is spelled out is a security that is not null. -/
theorem spellsOut_iff_of_legible {entry : Tree} (h : entry.Legible) : entry.SpellsOut ↔ entry.HasSecurity := by
  cases entry with
  | record tag entries =>
    obtain ⟨hkeys,honce⟩ := h tag entries rfl
    have hnames : ∀ e ∈ entries, (namesSecurity? e.1).isSome := by
      intro e he
      obtain ⟨name,hname⟩ := hkeys e he
      rw [namesSecurity?_of_settle? hname]
      rfl
    have hfilter : (entries.filter fun e => namesSecurity? e.1 = some true) =
        entries.filter fun e => e.1.asText? = some "security" := by
      refine List.filter_congr fun e he => ?_
      obtain ⟨name,hname⟩ := hkeys e he
      rw [namesSecurity?_of_settle? hname,asText?_of_settle? hname]
      simp
    have hentry : (record tag entries).child? "security" =
        (entries.filter fun e => e.1.asText? = some "security").getLast?.map (·.2) := by
      rw [child?,← List.head?_filter,List.filter_reverse,List.head?_reverse]
    rw [HasSecurity,hentry]
    constructor
    · rintro ⟨_,_,heq,-,e,he,hv⟩
      cases heq
      rw [hfilter] at he
      exact ⟨e.2,by simp [he],hv⟩
    · rintro ⟨v,hlast,hv⟩
      refine ⟨tag,entries,rfl,hnames,?_⟩
      rw [hfilter]
      obtain ⟨e,he,rfl⟩ := Option.map_eq_some_iff.mp hlast
      refine ⟨e,?_,hv⟩
      obtain ⟨before,hes⟩ := List.getLast?_eq_some_iff.mp he
      rw [hes,List.length_append,List.length_singleton] at honce
      have hnil : before = [] := List.length_eq_zero_iff.mp (by omega)
      rw [hes,hnil,List.nil_append]
  | _ =>
    constructor
    · rintro ⟨_,_,heq,-⟩
      cases heq
    · rintro ⟨_,heq,-⟩
      cases heq

end Tree

namespace DeclaredSecurity
open ActionCatalog.Tree

/-- What a member of an entry is read of. -/
def ReadAs (e : Tree × Tree) (m : Bool × Tree) : Prop := namesSecurity? e.1 = some m.1 ∧ e.2.settle? = some m.2

lemma member_eq_some_iff (e : Tree × Tree) (m : Bool × Tree) :
    (do return (← namesSecurity? e.1, ← e.2.settle?)) = some m ↔ ReadAs e m := by
  rw [ReadAs]
  cases namesSecurity? e.1 <;> cases e.2.settle? <;> simp [Prod.ext_iff]

lemma members?_eq_some_iff {entries : List (Tree × Tree)} {members : List (Bool × Tree)} :
    members? entries = some members ↔ List.Forall₂ ReadAs entries members := by
  rw [members?,Option.mapM_eq_some_iff]
  simp only [member_eq_some_iff]

/-- Security is given if one entry names it, and what that one holds is not null. -/
lemma givesSecurity_iff {entries : List (Tree × Tree)} {members : List (Bool × Tree)}
    (h : List.Forall₂ ReadAs entries members) : givesSecurity members ↔
      ∃ e, entries.filter (fun e => namesSecurity? e.1 = some true) = [e] ∧ e.2.settle? ≠ some .null := by
  have hfilter := List.rel_filter (p := fun e => namesSecurity? e.1 = some true) (q := (·.1))
    (fun e m hm => by simp [hm.1]) h
  rw [givesSecurity]
  generalize entries.filter _ = named at hfilter ⊢
  generalize members.filter _ = given at hfilter ⊢
  cases hfilter with
  | nil => simp
  | @cons e m named given hem hrest =>
    cases hrest with
    | nil =>
      obtain ⟨b,v⟩ := m
      cases v <;> simp [hem.2]
    | cons _ _ => simp

/-- An object whose members are settled gives its security exactly if it spells it out. -/
lemma any_members?_iff {tag : Option String} {entries : List (Tree × Tree)}
    (hvalues : ∀ e ∈ entries, ∃ v, e.2.settle? = some v) :
    (members? entries).any givesSecurity ↔ (record tag entries).SpellsOut := by
  constructor
  · intro h
    cases hmembers : members? entries with
    | none => simp [hmembers] at h
    | some members =>
      rw [hmembers,Option.any_some] at h
      have hall := members?_eq_some_iff.mp hmembers
      have hkeys : ∀ e ∈ entries, (namesSecurity? e.1).isSome :=
        ((List.forall₂_and_left entries members).mp (hall.imp fun e m hm => ⟨by simp [hm.1],hm⟩)).1
      exact ⟨tag,entries,rfl,hkeys,(givesSecurity_iff hall).mp h⟩
  · rintro ⟨_,_,heq,hkeys,hgiven⟩
    cases heq
    obtain ⟨members,hmembers⟩ : ∃ members, members? entries = some members := by
      refine Option.exists_mapM_eq_some fun e he => ?_
      obtain ⟨k,hk⟩ := Option.isSome_iff_exists.mp (hkeys e he)
      obtain ⟨v,hv⟩ := hvalues e he
      exact ⟨(k,v),(member_eq_some_iff e (k,v)).mpr ⟨hk,hv⟩⟩
    rw [hmembers,Option.any_some]
    exact (givesSecurity_iff (members?_eq_some_iff.mp hmembers)).mpr hgiven

/-- An entry that is looked at counts as spelling out its security exactly if it does. -/
lemma spellsOut?_iff {entry : Tree} {b : Bool} (h : spellsOut? entry = some b) : b = true ↔ entry.SpellsOut := by
  obtain ⟨settled,hsettled,h⟩ := Option.bind_eq_some_iff.mp h
  cases entry with
  | record tag entries =>
    have hvalues : ∀ e ∈ entries, ∃ v, e.2.settle? = some v := by
      rw [settle?] at hsettled
      split at hsettled
      · cases hsettled
      · obtain ⟨es,hes,-⟩ := Option.bind_eq_some_iff.mp hsettled
        exact ((List.forall₂_and_left entries es).mp
          ((settleEntries_eq_some_iff.mp hes).imp fun e e' he => ⟨⟨e'.2,he.2⟩,he⟩)).1
    cases h
    exact any_members?_iff hvalues
  | _ =>
    cases h
    refine iff_of_false Bool.false_ne_true ?_
    rintro ⟨_,_,heq,-⟩
    cases heq

/-- What is declared for a path are the methods of which an entry spells out its security. -/
theorem declares_iff {t : Tree} {declared : DeclaredSecurity} (h : read? t = some declared) (path method : String) :
    declared.declares path method ↔ t.HasEntry path method SpellsOut := by
  obtain ⟨o,ho,h⟩ := Option.bind_eq_some_iff.mp h
  obtain ⟨member,hm,h⟩ := Option.bind_eq_some_iff.mp h
  have hpaths := child?_of_member? ho hm
  simp only [HasEntry,pathChild?,hpaths,declares]
  cases member with
  | none =>
    cases h
    simp
  | some paths =>
    rw [Option.bind_some]
    have hget := get?_of_asDict? h path
    cases hitem : paths.child? path with
    | none => simp [hget,hitem]
    | some item =>
      obtain ⟨keys,hkeys,hfound⟩ := get?_eq_some_of_member? h hitem
      obtain ⟨es,hes,hkeys⟩ := Option.bind_eq_some_iff.mp hkeys
      cases hkeys
      have hmem : (((es.entries.filter (·.2)).map fun e => Text.asciiLower e.1).contains
          (Text.asciiLower method)) = true ↔
          ∃ key, es.get? key = some true ∧ Text.asciiLower key = Text.asciiLower method := by
        simp [Dict.mem_entries_iff]
      rw [hfound,Option.any_some,hmem]
      refine exists_congr fun key => ?_
      rw [Option.bind_some]
      cases hentry : item.child? key with
      | none => simp [get?_of_asDict? hes,hentry]
      | some entry =>
        obtain ⟨b,hb,hkey⟩ := get?_eq_some_of_member? hes hentry
        simp [hkey,spellsOut?_iff hb,and_comm]

end DeclaredSecurity

namespace Document
open ActionCatalog.Tree

/-- An operation of a path is read of the entry under the key of its method. -/
lemma PathItem.exists_child? {t : Tree} {item : PathItem} (h : read? t = some item) {method : Method}
    {source : Operation} (hsource : item.operation method = some source) :
    ∃ entry, t.child? method.key = some entry ∧ Operation.read? entry = some source := by
  obtain ⟨o,ho,h⟩ := Option.bind_eq_some_iff.mp h
  obtain ⟨-,-,h⟩ := Option.bind_eq_some_iff.mp h
  obtain ⟨get,hget,h⟩ := Option.bind_eq_some_iff.mp h
  obtain ⟨put,hput,h⟩ := Option.bind_eq_some_iff.mp h
  obtain ⟨post,hpost,h⟩ := Option.bind_eq_some_iff.mp h
  obtain ⟨delete,hdelete,h⟩ := Option.bind_eq_some_iff.mp h
  obtain ⟨options,hoptions,h⟩ := Option.bind_eq_some_iff.mp h
  obtain ⟨head,hhead,h⟩ := Option.bind_eq_some_iff.mp h
  obtain ⟨patch,hpatch,h⟩ := Option.bind_eq_some_iff.mp h
  obtain ⟨trace,htrace,h⟩ := Option.bind_eq_some_iff.mp h
  obtain ⟨parameters,-,h⟩ := Option.bind_eq_some_iff.mp h
  obtain ⟨servers,-,h⟩ := Option.bind_eq_some_iff.mp h
  cases h
  have hmember : o.optional? method.key Operation.read? = some (some source) := by
    cases method <;> simp_all
  exact exists_child?_of_optional? ho hmember

/-- The paths of a document are read of the entry under their name. -/
lemma exists_paths {t : Tree} {d : Document} (h : read? t = some d) : ∃ o paths, t.fields? = some o ∧
    o.optional? "paths" (asDict? PathItem.read?) = some paths ∧ d.paths = paths.getD ∅ := by
  obtain ⟨o,ho,h⟩ := Option.bind_eq_some_iff.mp h
  obtain ⟨-,-,h⟩ := Option.bind_eq_some_iff.mp h
  obtain ⟨-,-,h⟩ := Option.bind_eq_some_iff.mp h
  obtain ⟨-,-,h⟩ := Option.bind_eq_some_iff.mp h
  obtain ⟨-,-,h⟩ := Option.bind_eq_some_iff.mp h
  obtain ⟨-,-,h⟩ := Option.bind_eq_some_iff.mp h
  obtain ⟨paths,hpaths,h⟩ := Option.bind_eq_some_iff.mp h
  obtain ⟨components,-,h⟩ := Option.bind_eq_some_iff.mp h
  obtain ⟨servers,-,h⟩ := Option.bind_eq_some_iff.mp h
  obtain ⟨security,-,h⟩ := Option.bind_eq_some_iff.mp h
  cases h
  exact ⟨o,paths,ho,hpaths,rfl⟩

/-- The operations of a document stand under their paths and the keys of their methods. -/
theorem exists_pathChild? {t : Tree} {d : Document} (h : read? t = some d) {path : String} {item : PathItem}
    (hitem : d.paths.get? path = some item) {method : Method} {source : Operation}
    (hsource : item.operation method = some source) :
    ∃ entry, t.pathChild? path method.key = some entry ∧ Operation.read? entry = some source := by
  obtain ⟨o,paths,ho,hpaths,heq⟩ := exists_paths h
  rw [heq] at hitem
  cases paths with
  | none => cases hitem
  | some paths =>
    obtain ⟨pathsTree,hentry,hread⟩ := exists_child?_of_optional? ho hpaths
    rw [Option.getD_some,get?_of_asDict? hread] at hitem
    obtain ⟨itemTree,hitemTree,hitem⟩ := Option.bind_eq_some_iff.mp hitem
    obtain ⟨entry,hkey,hsource⟩ := PathItem.exists_child? hitem hsource
    exact ⟨entry,by simp [pathChild?,hentry,hitemTree,hkey],hsource⟩

end Document

namespace Grant

/-- The grants that requirements ask for, requirement by requirement. -/
def asked (rs : List Requirement) : List Grant := rs.flatMap fun r => r.entries.map fun e => ⟨e.1,e.2⟩

/-- Grants are what requirements ask for, one for each scope list of a provider, sorted by their providers; those of
one provider keep their order. -/
structure Flattens (rs : List Requirement) (gs : List Grant) : Prop where
  perm : gs.Perm (asked rs)
  sorted : gs.Pairwise (·.provider ≤ ·.provider)
  stable : ∀ provider, gs.filter (·.provider = provider) = (asked rs).filter (·.provider = provider)

theorem flattens_ofRequirements (rs : List Requirement) : Flattens rs (ofRequirements rs) := by
  let le (a b : Grant) : Bool := decide (a.provider ≤ b.provider)
  have htrans : ∀ a b c, le a b → le b c → le a c := by
    intro a b c hab hbc
    exact decide_eq_true (String.le_trans (of_decide_eq_true hab) (of_decide_eq_true hbc))
  have htotal : ∀ a b, le a b || le b a := by
    intro a b
    simpa [le] using String.le_total a.provider b.provider
  have hperm : ((asked rs).mergeSort le).Perm (asked rs) := List.mergeSort_perm _ _
  refine ⟨hperm,?_,fun provider => ?_⟩
  · exact (List.pairwise_mergeSort htrans htotal _).imp of_decide_eq_true
  · have hequal : ((asked rs).filter (·.provider = provider)).Pairwise (le · ·) := by
      refine List.pairwise_of_forall_mem_list fun a ha b hb => ?_
      have hab : a.provider = b.provider := by simp_all
      exact decide_eq_true (hab ▸ String.le_refl _)
    have hsub := (List.sublist_mergeSort htrans htotal hequal List.filter_sublist).filter (·.provider = provider)
    rw [List.filter_filter] at hsub
    simp only [Bool.and_self] at hsub
    exact (hsub.eq_of_length (hperm.filter _).length_eq.symm).symm

end Grant

namespace Operation
open ActionCatalog.Tree

/-- An operation is read of the entry under the key of its method. It has the grants of its own requirements if it
lists any, or if an entry of its path, under the name of its method in whatever case, spells out its security; and
otherwise those of the document. Where the keys of such entries are texts that give security no more than once, it
is spelled out exactly if there is one that is not null. -/
theorem security_in_effect (t : Tree) (d : Document) (declared : DeclaredSecurity) (hd : Document.read? t = some d)
    (hdeclared : DeclaredSecurity.read? t = some declared) (path : String) (item : Document.PathItem)
    (hitem : d.paths.get? path = some item) (method : Method) (source : Document.Operation)
    (hsource : item.operation method = some source) (shared : List Parameter) (o : Operation)
    (ho : build d declared path item shared method source = .ok o) :
    (∃ entry, t.pathChild? path method.key = some entry ∧ Document.Operation.read? entry = some source) ∧
    (source.security ≠ [] ∨ t.HasEntry path method.name SpellsOut → Grant.Flattens source.security o.security) ∧
    (source.security = [] → ¬t.HasEntry path method.name SpellsOut → Grant.Flattens d.security o.security) ∧
    ((∀ key entry, t.pathChild? path key = some entry → Text.asciiLower key = Text.asciiLower method.name →
        entry.Legible) →
      (t.HasEntry path method.name SpellsOut ↔ t.HasEntry path method.name HasSecurity)) := by
  have hdeclares := DeclaredSecurity.declares_iff hdeclared path method.name
  rw [(built_of_build ho).security_eq,requirements]
  refine ⟨Document.exists_pathChild? hd hitem hsource,fun h => ?_,fun hempty hnone => ?_,fun hlegible => ?_⟩
  · have hown : (source.security.isEmpty && !declared.declares path method.name) = false := by
      rw [← hdeclares] at h
      rcases h with h | h <;> simp [h]
    rw [hown]
    exact Grant.flattens_ofRequirements _
  · rw [← hdeclares,Bool.not_eq_true] at hnone
    rw [hempty,hnone]
    exact Grant.flattens_ofRequirements _
  · refine exists_congr fun key => exists_congr fun entry => and_congr_right fun hentry => ?_
    exact and_congr_right fun hkey => spellsOut_iff_of_legible (hlegible key entry hentry hkey)

/-- An entry that lists that it asks for nothing, next to a key that is a truth value. -/
def refusedEntry : Tree := .record none [
  (.written { text := "true" },.written { text := "y" }), (.written { text := "security" },.list none [])]

/-- A document that asks for a key, with an operation of this entry. -/
def optingOut : Tree :=
  let plain (text : String) : Tree := .written { text := text }
  let object (entries : List (String × Tree)) : Tree := .record none (entries.map fun e => (plain e.1,e.2))
  object [("openapi",plain "3.1.0"), ("info",object [("title",plain "t"), ("version",plain "v")]),
    ("security",.list none [object [("key",.list none [])]]),
    ("paths",object [("/a",object [("get",refusedEntry)])])]

/-- What is known of an operation of a document: what the document and the operation ask for, and whether it is
told that the operation spells out its security. -/
def glance? (t : Tree) (path : String) (method : Method) : Option (List Requirement × List Requirement × Bool) := do
  let d ← Document.read? t
  let declared ← DeclaredSecurity.read? t
  let item ← d.paths.get? path
  let source ← item.operation method
  let _ ← (build d declared path item [] method source).toOption
  return (d.security,source.security,declared.declares path method.name)

lemma exists_of_glance? {t : Tree} {path : String} {method : Method} {asked own : List Requirement} {b : Bool}
    (h : glance? t path method = some (asked,own,b)) : ∃ d declared item source o, Document.read? t = some d ∧
      DeclaredSecurity.read? t = some declared ∧ d.paths.get? path = some item ∧
      item.operation method = some source ∧ build d declared path item [] method source = .ok o ∧
      d.security = asked ∧ source.security = own ∧ declared.declares path method.name = b := by
  obtain ⟨d,hd,h⟩ := Option.bind_eq_some_iff.mp h
  obtain ⟨declared,hdeclared,h⟩ := Option.bind_eq_some_iff.mp h
  obtain ⟨item,hitem,h⟩ := Option.bind_eq_some_iff.mp h
  obtain ⟨source,hsource,h⟩ := Option.bind_eq_some_iff.mp h
  obtain ⟨o,ho,h⟩ := Option.bind_eq_some_iff.mp h
  cases h
  cases hbuild : build d declared path item [] method source with
  | error e => simp [hbuild,Except.toOption] at ho
  | ok o => exact ⟨d,declared,item,source,o,hd,hdeclared,hitem,hsource,hbuild,rfl,rfl,rfl⟩

/-- The operation gives its security, which is not told of it, and so it falls under the one of the document. -/
theorem security_in_effect_optingOut : ∃ d declared item source o, Document.read? optingOut = some d ∧
    DeclaredSecurity.read? optingOut = some declared ∧ d.paths.get? "/a" = some item ∧
    item.operation .get = some source ∧ build d declared "/a" item [] .get source = .ok o ∧
    optingOut.HasEntry "/a" "GET" HasSecurity ∧ o.security = [⟨"key",[]⟩] := by
  have hglance : glance? optingOut "/a" .get = some ([.ofList [("key",[])]],[],false) := by decide +kernel
  obtain ⟨d,declared,item,source,o,hd,hdeclared,hitem,hsource,ho,hasked,hown,hundeclared⟩ := exists_of_glance? hglance
  obtain ⟨-,-,hflattens,-⟩ := security_in_effect optingOut d declared hd hdeclared "/a" item hitem .get source
    hsource [] o ho
  have hsilent : ¬optingOut.HasEntry "/a" "GET" SpellsOut := by
    rw [← DeclaredSecurity.declares_iff hdeclared]
    exact Bool.eq_false_iff.mp hundeclared
  have hperm := (hflattens hown hsilent).perm
  rw [hasked] at hperm
  have hentry : optingOut.pathChild? "/a" "get" = some refusedEntry := by rfl
  have hmember : refusedEntry.child? "security" = some (.list none []) := by rfl
  have hkey : Text.asciiLower "get" = Text.asciiLower "GET" := by
    rw [← String.toList_inj,Text.asciiLower,Text.asciiLower,String.toList_map,String.toList_map]
    decide +kernel
  have hgives : optingOut.HasEntry "/a" "GET" HasSecurity :=
    ⟨"get",_,hentry,hkey,_,hmember,by simp [settle?,settleItems]⟩
  exact ⟨d,declared,item,source,o,hd,hdeclared,hitem,hsource,ho,hgives,List.perm_singleton.mp hperm⟩

end Operation
end ActionCatalog
