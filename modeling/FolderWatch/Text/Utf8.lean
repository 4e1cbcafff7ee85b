/-!
Byte strings shown as text. Valid UTF-8 reads as itself; every maximal ill-formed part reads as one
replacement character.
-/

namespace FolderWatch.Utf8

/-- What a lead byte promises: the payload bits it holds, how many continuation bytes follow, and
the bounds of the first of them. -/
structure Lead where
  bits : Nat
  tails : Nat
  low : UInt8
  high : UInt8

/-- The lead bytes of characters above ASCII. The bounds leave out overlong forms, surrogates and
everything above the last code point. -/
def lead? (byte : UInt8) : Option Lead :=
  let value := byte.toNat
  if value < 0xC2 then none
  else if value < 0xE0 then some ⟨value - 0xC0, 1, 0x80, 0xBF⟩
  else if value < 0xF0 then
    some ⟨value - 0xE0, 2, if value = 0xE0 then 0xA0 else 0x80, if value = 0xED then 0x9F else 0xBF⟩
  else if value < 0xF5 then
    some ⟨value - 0xF0, 3, if value = 0xF0 then 0x90 else 0x80, if value = 0xF4 then 0x8F else 0xBF⟩
  else none

/-- Reads the continuation bytes of one character. The first component is the code point, or none
where a byte is missing or out of bounds; the second is what follows the part that was read. -/
def readTails : (tails : Nat) → (low high : UInt8) → (code : Nat) → List UInt8 →
    Option Nat × List UInt8
  | 0, _, _, code, rest => (some code, rest)
  | _ + 1, _, _, _, [] => (none, [])
  | tails + 1, low, high, code, byte :: rest =>
      if low ≤ byte ∧ byte ≤ high then
        readTails tails 0x80 0xBF (code * 64 + (byte.toNat - 0x80)) rest
      else (none, byte :: rest)

theorem readTails_length (tails : Nat) (low high : UInt8) (code : Nat) (bytes : List UInt8) :
    (readTails tails low high code bytes).2.length ≤ bytes.length := by
  induction tails generalizing low high code bytes with
  | zero => simp [readTails]
  | succ tails ih =>
      cases bytes with
      | nil => simp [readTails]
      | cons byte rest =>
          simp only [readTails]
          split
          · exact Nat.le_succ_of_le (ih _ _ _ _)
          · simp

/-- The text of a byte string, one replacement character for each maximal ill-formed part. -/
def decode : List UInt8 → List Char
  | [] => []
  | byte :: rest =>
      if byte < 0x80 then Char.ofNat byte.toNat :: decode rest
      else match lead? byte with
        | none => '\uFFFD' :: decode rest
        | some lead =>
            let read := readTails lead.tails lead.low lead.high lead.bits rest
            have := readTails_length lead.tails lead.low lead.high lead.bits rest
            (read.1.elim '\uFFFD' Char.ofNat) :: decode read.2
termination_by bytes => bytes.length

def display (bytes : List UInt8) : String :=
  String.ofList (decode bytes)

def encode (text : String) : List UInt8 :=
  text.toByteArray.data.toList

def text? (bytes : List UInt8) : Option String :=
  String.fromUTF8? ⟨bytes.toArray⟩

theorem text?_encode (text : String) : text? (encode text) = some text := by
  change String.fromUTF8? text.toByteArray = some text
  rw [String.fromUTF8?, dif_pos text.isValidUTF8]
  rfl

theorem encode_of_text? {bytes : List UInt8} {text : String} (spelled : text? bytes = some text) :
    encode text = bytes := by
  simp only [text?, String.fromUTF8?] at spelled
  split at spelled
  · simp only [Option.some.injEq] at spelled
    subst spelled
    rfl
  · simp at spelled

end FolderWatch.Utf8
