import RestGateway.Bytes

/-!
# UTF-8

A text is its UTF-8 form: `Utf8.encode` lists the bytes of a text, and `Utf8.decode` accepts
exactly the lists that some text has (`decode_encode`, `encode_of_decode`). Where bytes are no text,
the fault says where the first ill-formed sequence starts and how many of its bytes were wrong, and
`Utf8.mend` puts a sign in the place of every such sequence.
-/

namespace RestGateway.Utf8

/-- The first sequence that is not well-formed: where it starts, and how many bytes it spoils. No
length is given when the input ends inside a sequence that was well-formed so far. -/
structure Fault where
  offset : Nat
  length : Option Nat
deriving Repr, DecidableEq

/-- The fault in words. -/
def Fault.message (f : Fault) : String :=
  match f.length with
  | some n => s!"invalid utf-8 sequence of {n} bytes from index {f.offset}"
  | none => s!"incomplete utf-8 byte sequence from index {f.offset}"

/-- The bytes of a text. -/
def encode (s : String) : Bytes := s.toByteArray.data.toList

/-- The bytes of one character. -/
def encodeChar (c : Char) : Bytes := String.utf8EncodeChar c

/-- Continuation bytes. -/
def isTail (b : UInt8) : Bool := 0x80 ≤ b && b ≤ 0xBF

/-- Lead bytes of sequences of two. -/
def leadsTwo (b : UInt8) : Bool := 0xC2 ≤ b && b ≤ 0xDF

/-- Lead bytes of sequences of three. -/
def leadsThree (b : UInt8) : Bool := 0xE0 ≤ b && b ≤ 0xEF

/-- Lead bytes of sequences of four. -/
def leadsFour (b : UInt8) : Bool := 0xF0 ≤ b && b ≤ 0xF4

/-- The second byte that a lead byte of three or four admits: overlong forms, surrogates and
numbers above the last code point are ruled out here. -/
def fits (lead second : UInt8) : Bool :=
  if lead == 0xE0 then 0xA0 ≤ second && second ≤ 0xBF
  else if lead == 0xED then 0x80 ≤ second && second ≤ 0x9F
  else if lead == 0xF0 then 0x90 ≤ second && second ≤ 0xBF
  else if lead == 0xF4 then 0x80 ≤ second && second ≤ 0x8F
  else isTail second

/-- The first ill-formed sequence of `s`, whose first byte has the offset `n`. -/
def faultFrom (n : Nat) : Bytes → Option Fault
  | [] => none
  | a :: s =>
    if a < 0x80 then faultFrom (n + 1) s
    else match s with
      | [] => some ⟨n, if leadsTwo a || leadsThree a || leadsFour a then none else some 1⟩
      | b :: s =>
        if leadsTwo a then
          if isTail b then faultFrom (n + 2) s else some ⟨n, some 1⟩
        else if leadsThree a then
          if fits a b then
            match s with
            | [] => some ⟨n, none⟩
            | c :: s => if isTail c then faultFrom (n + 3) s else some ⟨n, some 2⟩
          else some ⟨n, some 1⟩
        else if leadsFour a then
          if fits a b then
            match s with
            | [] => some ⟨n, none⟩
            | c :: s =>
              if isTail c then
                match s with
                | [] => some ⟨n, none⟩
                | d :: s => if isTail d then faultFrom (n + 4) s else some ⟨n, some 3⟩
              else some ⟨n, some 2⟩
          else some ⟨n, some 1⟩
        else some ⟨n, some 1⟩

/-- The text whose bytes these are, or the first fault. -/
def decode (s : Bytes) : Except Fault String :=
  let array : ByteArray := ⟨s.toArray⟩
  if h : array.IsValidUTF8 then .ok (String.ofByteArray array h)
  else .error ((faultFrom 0 s).getD ⟨0, none⟩)

/-- The text whose bytes these are, if there is one. -/
def decode? (s : Bytes) : Option String := (decode s).toOption

/-- The text of `s` with the sign `mark` in the place of each ill-formed sequence, behind the text
`done`. The clock is at least as long as `s`. -/
def mendOnto (mark : Char) (done : String) : (clock : Bytes) → Bytes → String
  | [], _ => done
  | _ :: clock, s =>
    match decode s with
    | .ok text => done ++ text
    | .error f =>
      let good := (decode? (s.take f.offset)).getD ""
      let spoiled := f.length.getD (s.length - f.offset)
      mendOnto mark ((done ++ good).push mark) clock (s.drop (f.offset + spoiled))

/-- The text of `s`, where the replacement character stands for each ill-formed sequence. -/
def mend (s : Bytes) : String := mendOnto '\ufffd' "" (0 :: s) s

/-- The text without the mark of the byte order that it may start with. -/
def dropMark (s : String) : String :=
  match s.toList with
  | '\ufeff' :: cs => String.ofList cs
  | _ => s

theorem decode_encode (s : String) : decode (encode s) = .ok s := by
  have h : (⟨(encode s).toArray⟩ : ByteArray) = s.toByteArray := by simp [encode]
  simp only [decode, h, s.isValidUTF8, dite_true]

theorem decode?_encode (s : String) : decode? (encode s) = some s := by
  rw [decode?, decode_encode]
  rfl

theorem encode_of_decode {b : Bytes} {s : String} (h : decode b = .ok s) : encode s = b := by
  unfold decode at h
  dsimp only at h
  split at h
  · cases h
    simp [encode]
  · cases h

theorem mend_encode (s : String) : mend (encode s) = s := by
  simp [mend, mendOnto, decode_encode]

end RestGateway.Utf8
