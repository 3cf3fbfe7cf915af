/-!
# Text

Rules, registry documents and reports are lists of characters. A position in a text is counted in
bytes of its UTF-8 form, so that a token can be located in the file it came from; `takeBytes` and
`dropBytes` cut a text at such a position.
-/

namespace RoutingPolicy

/-- A list of characters, located by byte offsets of its UTF-8 form. -/
abbrev Text := List Char

namespace Text

/-- The number of bytes of the UTF-8 form. -/
def byteSize : Text → Nat
  | [] => 0
  | c :: text => c.utf8Size + byteSize text

@[simp] theorem byteSize_nil : byteSize [] = 0 := rfl

@[simp] theorem byteSize_cons (c : Char) (text : Text) :
    byteSize (c :: text) = c.utf8Size + byteSize text := rfl

@[simp] theorem byteSize_append (a b : Text) : byteSize (a ++ b) = byteSize a + byteSize b := by
  induction a with
  | nil => simp
  | cons c a ih => simp [ih, Nat.add_assoc]

/-- The text before byte `n`. -/
def takeBytes : Nat → Text → Text
  | _, [] => []
  | 0, _ :: _ => []
  | n + 1, c :: text => c :: takeBytes (n + 1 - c.utf8Size) text

/-- The text from byte `n` on. -/
def dropBytes : Nat → Text → Text
  | _, [] => []
  | 0, c :: text => c :: text
  | n + 1, c :: text => dropBytes (n + 1 - c.utf8Size) text

theorem takeBytes_append_dropBytes (n : Nat) (text : Text) :
    takeBytes n text ++ dropBytes n text = text := by
  fun_induction takeBytes n text <;> simp_all [dropBytes]

/-- The end of a first part is a position at which the first part is cut off again. -/
theorem takeBytes_byteSize (a b : Text) : takeBytes (byteSize a) (a ++ b) = a := by
  induction a with
  | nil => cases b <;> simp [takeBytes]
  | cons c a ih =>
    obtain ⟨k, hk⟩ := Nat.exists_eq_succ_of_ne_zero (Nat.ne_of_gt c.utf8Size_pos)
    have hsum : byteSize (c :: a) = k + byteSize a + 1 := by simp [hk]; omega
    rw [hsum, List.cons_append, takeBytes,
      show k + byteSize a + 1 - c.utf8Size = byteSize a by omega, ih]

theorem dropBytes_byteSize (a b : Text) : dropBytes (byteSize a) (a ++ b) = b := by
  have h := takeBytes_append_dropBytes (byteSize a) (a ++ b)
  rw [takeBytes_byteSize] at h
  exact List.append_cancel_left h

def utf8 (text : Text) : List UInt8 := text.flatMap String.utf8EncodeChar

@[simp] theorem utf8_append (a b : Text) : utf8 (a ++ b) = utf8 a ++ utf8 b := by
  simp [utf8]

/-- The pieces between the occurrences of `separator`; always one more than there are of these. -/
def splitOn (separator : Char) : Text → List Text
  | [] => [[]]
  | c :: text =>
    if c = separator then [] :: splitOn separator text
    else match splitOn separator text with
      | [] => [[c]]
      | piece :: pieces => (c :: piece) :: pieces

theorem splitOn_ne_nil (separator : Char) (text : Text) : splitOn separator text ≠ [] := by
  cases text with
  | nil => simp [splitOn]
  | cons c text => rw [splitOn]; split <;> (try split) <;> simp

/-- The text around the first occurrence of `mark`, if there is one. -/
def splitAt? (mark : Text) : Text → Option (Text × Text)
  | [] => if mark = [] then some ([], []) else none
  | c :: text =>
    if mark.isPrefixOf (c :: text) then some ([], (c :: text).drop mark.length)
    else (splitAt? mark text).map fun (before, after) => (c :: before, after)

/-- Whether two texts agree when the letters A to Z are not told from a to z. -/
def sameLetters (a b : Text) : Bool := a.map Char.toUpper == b.map Char.toUpper

/-- What follows `head` in `text`, if `text` begins with `head` in some letter case. -/
def dropHead? (head text : Text) : Option Text :=
  if sameLetters (text.take head.length) head then some (text.drop head.length) else none

end Text

end RoutingPolicy
