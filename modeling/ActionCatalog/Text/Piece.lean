/-! Cutting a text into pieces, and replacing a piece of it. -/
namespace ActionCatalog.Text

/-- White space as Unicode defines it. -/
def isBlank (c : Char) : Bool :=
  [(0x9,0xD), (0x20,0x20), (0x85,0x85), (0xA0,0xA0), (0x1680,0x1680), (0x2000,0x200A),
   (0x2028,0x2029), (0x202F,0x202F), (0x205F,0x205F), (0x3000,0x3000)].any
    fun (a,b) => a ≤ c.toNat && c.toNat ≤ b

def extendHead (c : Char) : List (List Char) → List (List Char)
  | [] => [[c]]
  | piece :: pieces => (c :: piece) :: pieces

/-- The pieces between the characters that `p` marks, one more than there are such characters. -/
def splitWhere (p : Char → Bool) : List Char → List (List Char)
  | [] => [[]]
  | c :: rest => if p c then [] :: splitWhere p rest else extendHead c (splitWhere p rest)

/-- The pieces between blanks, without the empty ones. -/
def words (text : List Char) : List (List Char) := (splitWhere isBlank text).filter (!·.isEmpty)

/-- Replaces the occurrences of `piece`, found from left to right and without overlap; the number
tells how many characters of a found occurrence are still to be passed over. -/
def replaceFrom (piece new : List Char) : Nat → List Char → List Char
  | _, [] => []
  | k+1, _ :: rest => replaceFrom piece new k rest
  | 0, c :: rest =>
    if piece.isPrefixOf (c :: rest) then new ++ replaceFrom piece new (piece.length - 1) rest
    else c :: replaceFrom piece new 0 rest

/-- Replaces each occurrence of a non-empty piece. -/
def replace (piece new text : List Char) : List Char := replaceFrom piece new 0 text

/-- Letters of ASCII in lower case, all else as it is. -/
def asciiLower (s : String) : String := s.map Char.toLower

/-- The number of bytes that a text takes. -/
def width : List Char → Nat
  | [] => 0
  | c :: rest => c.utf8Size + width rest

/-- The first text if it says anything, and otherwise the second. -/
def firstOf (first second : Option String) : String := ((first.filter (· ≠ "")).or second).getD ""

@[simp] theorem width_append (a b : List Char) : width (a ++ b) = width a + width b := by
  induction a with
  | nil => simp [width]
  | cons c rest ih => simp [width,ih,Nat.add_assoc]

theorem width_eq (text : List Char) : width text = (String.ofList text).utf8ByteSize := by
  induction text with
  | nil => rfl
  | cons c rest ih =>
    rw [width,ih,← String.utf8ByteSize_singleton,← String.utf8ByteSize_append,String.singleton_eq_ofList,
      ← String.ofList_append,List.singleton_append]

@[simp] theorem splitWhere_nil (p : Char → Bool) : splitWhere p [] = [[]] := rfl

theorem splitWhere_ne_nil (p : Char → Bool) (text : List Char) : splitWhere p text ≠ [] := by
  cases text with
  | nil => simp
  | cons c rest =>
    simp only [splitWhere]
    split
    · simp
    · cases splitWhere p rest <;> simp [extendHead]

end ActionCatalog.Text
