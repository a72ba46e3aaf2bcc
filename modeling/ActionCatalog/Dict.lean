/-! Dictionaries with text keys, listed in ascending order of their keys. Two dictionaries are
equal as soon as every key looks up the same value in both. -/
namespace ActionCatalog

/-- Entries in strictly ascending order of their keys. -/
structure Dict (α : Type) where
  entries : List (String × α) := []
  ascending : entries.Pairwise (fun a b => a.1 < b.1) := by simp
  deriving DecidableEq, Repr

namespace Dict
variable {α β : Type}

instance : EmptyCollection (Dict α) := ⟨{}⟩
instance : Inhabited (Dict α) := ⟨∅⟩

def keys (d : Dict α) : List String := d.entries.map (·.1)
def values (d : Dict α) : List α := d.entries.map (·.2)
def size (d : Dict α) : Nat := d.entries.length
def isEmpty (d : Dict α) : Bool := d.entries.isEmpty

/-- The value stored under `k`. -/
def get? (d : Dict α) (k : String) : Option α := d.entries.lookup k
def contains (d : Dict α) (k : String) : Bool := (d.get? k).isSome

/-- Puts `v` under `k`, in place of what `k` held. -/
def put (k : String) (v : α) : List (String × α) → List (String × α)
  | [] => [(k, v)]
  | e :: rest =>
    if k < e.1 then (k, v) :: e :: rest
    else if k = e.1 then (k, v) :: rest
    else e :: put k v rest

theorem mem_put {k : String} {v : α} {es : List (String × α)} {e : String × α}
    (h : e ∈ put k v es) : e = (k, v) ∨ e ∈ es := by
  induction es with
  | nil => simpa [put] using h
  | cons e' rest ih =>
    simp only [put] at h
    split at h
    · simpa using h
    · split at h
      · rcases List.mem_cons.mp h with h | h
        · exact .inl h
        · exact .inr (List.mem_cons_of_mem _ h)
      · rcases List.mem_cons.mp h with h | h
        · exact .inr (h ▸ List.mem_cons_self)
        · exact (ih h).imp id (List.mem_cons_of_mem _)

theorem put_ascending {k : String} {v : α} {es : List (String × α)}
    (h : es.Pairwise (fun a b => a.1 < b.1)) : (put k v es).Pairwise (fun a b => a.1 < b.1) := by
  induction es with
  | nil => simp [put]
  | cons e rest ih =>
    obtain ⟨he,hr⟩ := List.pairwise_cons.mp h
    simp only [put]
    split
    · rename_i hlt
      refine List.pairwise_cons.mpr ⟨?_,h⟩
      intro x hx
      rcases List.mem_cons.mp hx with hx | hx
      · exact hx ▸ hlt
      · exact String.lt_trans hlt (he x hx)
    · split
      · rename_i heq
        exact List.pairwise_cons.mpr ⟨fun x hx => heq ▸ he x hx,hr⟩
      · rename_i hlt hne
        refine List.pairwise_cons.mpr ⟨?_,ih hr⟩
        intro x hx
        rcases mem_put hx with hx | hx
        · rw [hx]
          exact Decidable.byContradiction fun h => hne (Std.Trichotomous.trichotomous _ _ hlt h)
        · exact he x hx

def insert (d : Dict α) (k : String) (v : α) : Dict α := ⟨put k v d.entries,put_ascending d.ascending⟩

/-- Puts entries in one after another; a later one replaces an earlier one. -/
def insertAll (d : Dict α) (es : List (String × α)) : Dict α := es.foldl (fun d e => d.insert e.1 e.2) d

/-- The dictionary of a list of entries. -/
def ofList (es : List (String × α)) : Dict α := insertAll ∅ es

/-- Keeps every key and maps its value. -/
def map (f : String → α → β) (d : Dict α) : Dict β where
  entries := d.entries.map fun e => (e.1, f e.1 e.2)
  ascending := by simpa [List.pairwise_map] using d.ascending

theorem filterMap_ascending (f : String → α → Option β) {es : List (String × α)}
    (h : es.Pairwise (fun a b => a.1 < b.1)) :
    (es.filterMap fun e => (f e.1 e.2).map (e.1, ·)).Pairwise (fun a b => a.1 < b.1) := by
  refine h.filterMap _ ?_
  intro a b hab a' ha b' hb
  obtain ⟨_,_,rfl⟩ := Option.map_eq_some_iff.mp ha
  obtain ⟨_,_,rfl⟩ := Option.map_eq_some_iff.mp hb
  exact hab

/-- Keeps the keys whose value maps to something. -/
def filterMap (f : String → α → Option β) (d : Dict α) : Dict β :=
  ⟨d.entries.filterMap fun e => (f e.1 e.2).map (e.1, ·),filterMap_ascending f d.ascending⟩

end Dict
end ActionCatalog
