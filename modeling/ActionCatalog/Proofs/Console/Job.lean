import ActionCatalog.Console.Session
import ActionCatalog.Proofs.Fallible

/-! What a job reads. Main statement: a catalog is drafted exactly if the document and the mask that are named can be
read and make one; otherwise the draft fails with the problem of the first of them that does not. -/
namespace ActionCatalog.Console

lemma Problem.ofFailure_eq_ok_iff {α : Type} {x : Except Failure α} {v : α} : ofFailure x = .ok v ↔ x = .ok v := by
  cases x <;> simp [ofFailure]

/-- The catalog of a job, as it is to be written. -/
def Job.draft (j : Job) (look : String → Entry) : Except Problem Draft := do
  let i ← j.load look
  let g ← Problem.ofFailure (generate i.document i.declared i.mask)
  return ⟨j.directory,j.output,g.text⟩

namespace Job

/-- The job that a request names. The document and the mask lie in its directory unless they are given by other
paths, and a mask that is given must be there. -/
structure Named (j : Job) (current : String) (r : Request) : Prop where
  directory : j.directory = Path.join current ((r.get? .path).getD "")
  source : j.source = .resolve j.directory ((r.get? .openapi).getD "openapi.yaml")
  given : ∀ path, r.get? .mask = some path → j.mask = Path.join j.directory path ∧ j.maskRequired = true
  usual : r.get? .mask = none → j.mask = Path.join j.directory "mask.yaml" ∧ j.maskRequired = false

/-- The document of a job is read: at its path lie the bytes of a tree which reads as a document, and as the security
that its operations declare. -/
inductive ReadsDocument (j : Job) (look : String → Entry) : Document → DeclaredSecurity → Prop
  | file {path : String} {bytes : ByteArray} {tree : Tree} {d : Document} {declared : DeclaredSecurity}
      (source : j.source = .file path) (found : look path = .file bytes)
      (parsed : (j.source.format bytes).tree? bytes = some tree) (document : Document.read? tree = some d)
      (security : DeclaredSecurity.read? tree = some declared) : ReadsDocument j look d declared

/-- The mask of a job is read: its file holds the text of one, or there is none and none was asked for. -/
inductive ReadsMask (j : Job) (look : String → Entry) : Mask → Prop
  | file {bytes : ByteArray} {text : String} {m : Mask} (found : look j.mask = .file bytes)
      (decoded : String.fromUTF8? bytes = some text) (read : Mask.read text = .ok m) : ReadsMask j look m
  | none (absent : look j.mask = .absent) (optional : j.maskRequired = false) : ReadsMask j look {}

structure Reads (j : Job) (look : String → Entry) (i : Inputs) : Prop where
  document : j.ReadsDocument look i.document i.declared
  mask : j.ReadsMask look i.mask

/-- What keeps a catalog from being drafted. The document is looked at before the mask, and both before the catalog. -/
inductive Fails (j : Job) (look : String → Entry) : Problem → Prop
  | remote {url : String} (source : j.source = .remote url) : Fails j look (.fetch url)
  | unopened {path : String} (source : j.source = .file path) (found : ∀ bytes, look path ≠ .file bytes) :
      Fails j look (.openDocument j.source)
  | unparsed {path : String} {bytes : ByteArray} (source : j.source = .file path) (found : look path = .file bytes)
      (parsed : ∀ tree, (j.source.format bytes).tree? bytes = some tree → Document.read? tree = none) :
      Fails j look (.parseDocument j.source)
  | unsecured {path : String} {bytes : ByteArray} {tree : Tree} {d : Document} (source : j.source = .file path)
      (found : look path = .file bytes) (parsed : (j.source.format bytes).tree? bytes = some tree)
      (document : Document.read? tree = some d) (security : DeclaredSecurity.read? tree = none) :
      Fails j look (.readSecurity j.source)
  | unread {d : Document} {declared : DeclaredSecurity} (document : j.ReadsDocument look d declared)
      (mask : ∀ bytes, look j.mask = .file bytes → String.fromUTF8? bytes = none)
      (needed : look j.mask = .absent → j.maskRequired = true) : Fails j look (.readMask j.mask)
  | invalid {d : Document} {declared : DeclaredSecurity} {bytes : ByteArray} {text : String} {fault : Mask.Fault}
      (document : j.ReadsDocument look d declared) (found : look j.mask = .file bytes)
      (decoded : String.fromUTF8? bytes = some text) (read : Mask.read text = .error fault) :
      Fails j look (.invalidMask j.mask)
  | failed {i : Inputs} {f : Failure} (reads : j.Reads look i)
      (made : generate i.document i.declared i.mask = .error f) : Fails j look (.failed f)

variable {j : Job} {look : String → Entry}

/-- The document of a job is read, or it is known why not. -/
lemma loadDocument_cases (j : Job) (look : String → Entry) :
    (∃ d declared, j.loadDocument look = .ok (d,declared) ∧ j.ReadsDocument look d declared) ∨
      ∃ p, j.loadDocument look = .error p ∧ j.Fails look p := by
  rw [loadDocument]
  split
  · rename_i url hsource
    exact .inr ⟨_,rfl,.remote hsource⟩
  · rename_i path hsource
    split
    · rename_i bytes hfound
      split
      · rename_i hparsed
        exact .inr ⟨_,rfl,.unparsed hsource hfound (by simp [hparsed])⟩
      · rename_i tree hparsed
        split
        · rename_i hdocument
          refine .inr ⟨_,rfl,.unparsed hsource hfound fun tree' htree => ?_⟩
          rw [hparsed] at htree
          cases htree
          exact hdocument
        · rename_i d hdocument hsecurity
          exact .inr ⟨_,rfl,.unsecured hsource hfound hparsed hdocument hsecurity⟩
        · rename_i d declared hdocument hsecurity
          exact .inl ⟨_,_,rfl,.file hsource hfound hparsed hdocument hsecurity⟩
    · rename_i hfound
      exact .inr ⟨_,rfl,.unopened hsource hfound⟩

/-- Behind its document the mask of a job is read, or it is known why not. -/
lemma loadMask_cases {d : Document} {declared : DeclaredSecurity} (hdocument : j.ReadsDocument look d declared) :
    (∃ m, j.loadMask look = .ok m ∧ j.ReadsMask look m) ∨ ∃ p, j.loadMask look = .error p ∧ j.Fails look p := by
  rw [loadMask]
  split
  · rename_i bytes hfound
    split
    · rename_i hdecoded
      refine .inr ⟨_,rfl,.unread hdocument (fun bytes' hbytes => ?_) (by simp [hfound])⟩
      rw [hfound] at hbytes
      cases hbytes
      exact hdecoded
    · rename_i text hdecoded
      split
      · rename_i m hread
        exact .inl ⟨_,rfl,.file hfound hdecoded hread⟩
      · rename_i fault hread
        exact .inr ⟨_,rfl,.invalid hdocument hfound hdecoded hread⟩
  · rename_i habsent
    split
    · rename_i hrequired
      exact .inr ⟨_,rfl,.unread hdocument (by simp [habsent]) fun _ => hrequired⟩
    · rename_i hrequired
      exact .inl ⟨_,rfl,.none habsent (by simpa using hrequired)⟩
  · rename_i hfound habsent
    exact .inr ⟨_,rfl,.unread hdocument (fun bytes hbytes => absurd hbytes (hfound bytes))
      fun hnone => absurd hnone habsent⟩

lemma ReadsDocument.loadDocument_eq {d : Document} {declared : DeclaredSecurity} (h : j.ReadsDocument look d declared) :
    j.loadDocument look = .ok (d,declared) := by
  cases h with
  | file source found parsed document security =>
    rw [source] at parsed
    simp [loadDocument,source,found,parsed,document,security]

lemma ReadsMask.loadMask_eq {m : Mask} (h : j.ReadsMask look m) : j.loadMask look = .ok m := by
  cases h with
  | file found decoded read => simp [loadMask,found,decoded,read]
  | none absent optional => simp [loadMask,absent,optional]

/-- What a job reads is what it works on. -/
theorem load_eq_ok_iff {i : Inputs} : j.load look = .ok i ↔ j.Reads look i := by
  constructor
  · intro h
    obtain ⟨⟨d,declared⟩,hd,h⟩ := Except.bind_eq_ok_iff.mp h
    obtain ⟨m,hm,h⟩ := Except.bind_eq_ok_iff.mp h
    cases h
    rcases loadDocument_cases j look with ⟨d',declared',hd',hdocument⟩ | ⟨p,hp,-⟩
    · cases hd.symm.trans hd'
      rcases loadMask_cases hdocument with ⟨m',hm',hmask⟩ | ⟨p,hp,-⟩
      · cases hm.symm.trans hm'
        exact ⟨hdocument,hmask⟩
      · cases hm.symm.trans hp
    · cases hd.symm.trans hp
  · rintro ⟨hdocument,hmask⟩
    refine Except.bind_eq_ok_iff.mpr ⟨_,hdocument.loadDocument_eq,?_⟩
    exact Except.bind_eq_ok_iff.mpr ⟨_,hmask.loadMask_eq,rfl⟩

/-- A catalog is drafted exactly of a document and a mask that are read. -/
theorem draft_eq_ok_iff {d : Draft} : j.draft look = .ok d ↔ ∃ i g, j.Reads look i ∧
    generate i.document i.declared i.mask = .ok g ∧ d = ⟨j.directory,j.output,g.text⟩ := by
  constructor
  · intro h
    obtain ⟨i,hi,h⟩ := Except.bind_eq_ok_iff.mp h
    obtain ⟨g,hg,h⟩ := Except.bind_eq_ok_iff.mp h
    cases h
    exact ⟨i,g,load_eq_ok_iff.mp hi,Problem.ofFailure_eq_ok_iff.mp hg,rfl⟩
  · rintro ⟨i,g,hreads,hg,rfl⟩
    refine Except.bind_eq_ok_iff.mpr ⟨i,load_eq_ok_iff.mpr hreads,?_⟩
    exact Except.bind_eq_ok_iff.mpr ⟨g,Problem.ofFailure_eq_ok_iff.mpr hg,rfl⟩

lemma draft_of_document {p : Problem} (h : j.loadDocument look = .error p) : j.draft look = .error p := by
  rw [draft,load,h]
  rfl

lemma draft_of_mask {d : Document} {declared : DeclaredSecurity} {p : Problem}
    (hdocument : j.ReadsDocument look d declared) (h : j.loadMask look = .error p) : j.draft look = .error p := by
  rw [draft,load,hdocument.loadDocument_eq,h]
  rfl

lemma Fails.draft_eq {p : Problem} (h : j.Fails look p) : j.draft look = .error p := by
  cases h with
  | remote source => exact draft_of_document (by simp [loadDocument,source])
  | @unopened path source found =>
    refine draft_of_document ?_
    cases hentry : look path with
    | file bytes => exact absurd hentry (found bytes)
    | directory => simp [loadDocument,source,hentry]
    | absent => simp [loadDocument,source,hentry]
    | obstructed => simp [loadDocument,source,hentry]
  | @unparsed path bytes source found parsed =>
    refine draft_of_document ?_
    rw [source] at parsed ⊢
    cases htree : ((Source.file path).format bytes).tree? bytes with
    | none => simp [loadDocument,source,found,htree]
    | some tree => simp [loadDocument,source,found,htree,parsed tree htree]
  | unsecured source found parsed document security =>
    refine draft_of_document ?_
    rw [source] at parsed ⊢
    simp [loadDocument,source,found,parsed,document,security]
  | unread document mask needed =>
    refine draft_of_mask document ?_
    rw [loadMask]
    split
    · rename_i bytes hfile
      simp [mask bytes hfile]
    · rename_i habsent
      simp [needed habsent]
    · rfl
  | invalid document found decoded read => exact draft_of_mask document (by simp [loadMask,found,decoded,read])
  | failed reads made =>
    rw [draft,load_eq_ok_iff.mpr reads]
    simp [bind,Except.bind,made,Problem.ofFailure]

/-- A draft fails with what keeps the catalog from being drafted. -/
theorem draft_eq_error_iff {p : Problem} : j.draft look = .error p ↔ j.Fails look p := by
  refine ⟨fun h => ?_,Fails.draft_eq⟩
  suffices hcases : (∃ d, j.draft look = .ok d) ∨ ∃ p, j.Fails look p by
    rcases hcases with ⟨d,hd⟩ | ⟨p',hfails⟩
    · cases h.symm.trans hd
    · cases h.symm.trans hfails.draft_eq
      exact hfails
  rcases loadDocument_cases j look with ⟨d,declared,-,hdocument⟩ | ⟨p,-,hfails⟩
  · rcases loadMask_cases hdocument with ⟨m,-,hmask⟩ | ⟨p,-,hfails⟩
    · have reads : j.Reads look ⟨d,declared,m⟩ := ⟨hdocument,hmask⟩
      cases hg : generate d declared m with
      | ok g => exact .inl ⟨_,draft_eq_ok_iff.mpr ⟨_,g,reads,hg,rfl⟩⟩
      | error f => exact .inr ⟨_,.failed reads hg⟩
    · exact .inr ⟨p,hfails⟩
  · exact .inr ⟨p,hfails⟩

end Job
end ActionCatalog.Console
