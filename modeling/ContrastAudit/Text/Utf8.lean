import ContrastAudit.Text.Hexadecimal

/-!
# Bytes and characters

A text is stored as bytes, one to four for a character.  Bytes that no text is stored as are refused
at the first sequence that is wrong: at a byte that starts no character, at a character whose
further bytes are wrong, or at one that the end of the bytes cuts off.

**Results.**
* `decodeFrom_ascii`: bytes below 128 are characters of their own.
-/

namespace ContrastAudit.Text.Utf8

/-- Why bytes are refused. -/
inductive Reason
  | invalidStart
  | invalidContinuation
  | unexpectedEnd
  deriving DecidableEq, Repr

/-- The reason in words. -/
def Reason.text : Reason → String
  | .invalidStart => "invalid start byte"
  | .invalidContinuation => "invalid continuation byte"
  | .unexpectedEnd => "unexpected end of data"

/-- Where and why bytes are refused: the first wrong sequence begins with `byte` at `position` and
has `length` bytes. -/
structure DecodeError where
  byte : UInt8
  position : Nat
  length : Nat
  reason : Reason
  deriving DecidableEq, Repr

/-- The error in words. -/
def DecodeError.message (e : DecodeError) : String :=
  let place :=
    if e.length = 1 then
      "byte 0x" ++ String.ofList (hexDigits 2 e.byte.toNat) ++ " in position " ++
        toString e.position
    else
      "bytes in position " ++ toString e.position ++ "-" ++ toString (e.position + e.length - 1)
  "'utf-8' codec can't decode " ++ place ++ ": " ++ e.reason.text

/-- The number of bytes that follow the first one of a character of several bytes. -/
def following (first : UInt8) : Nat :=
  if first < 0xE0 then 1 else if first < 0xF0 then 2 else 3

/-- Whether a byte may follow in a character; `first` tells the first byte if this is the second
one, for which fewer bytes are allowed behind some first bytes. -/
def mayFollow (first : Option UInt8) (b : UInt8) : Bool :=
  0x80 ≤ b && b < 0xC0 &&
    match first with
    | some 0xE0 => 0xA0 ≤ b
    | some 0xED => b < 0xA0
    | some 0xF0 => 0x90 ≤ b
    | some 0xF4 => b < 0x90
    | _ => true

/-- The bytes of a text that may follow, at most `count`. -/
def takeFollowing (first : Option UInt8) : Nat → List UInt8 → List UInt8
  | count + 1, b :: bs => if mayFollow first b then b :: takeFollowing none count bs else []
  | _, _ => []

/-- The character of a first byte and the bytes that follow. -/
def character (first : UInt8) (more : List UInt8) : Char :=
  let lead := match more.length with
    | 1 => first.toNat % 32
    | 2 => first.toNat % 16
    | _ => first.toNat % 8
  Char.ofNat (more.foldl (fun n b => 64 * n + b.toNat % 64) lead)

/-- The text of bytes that stand at a position. -/
def decodeFrom (position : Nat) (bytes : List UInt8) : Except DecodeError (List Char) :=
  match bytes with
  | [] => .ok []
  | b :: bs =>
    if b < 0x80 then do
      return Char.ofNat b.toNat :: (← decodeFrom (position + 1) bs)
    else if b < 0xC2 || 0xF4 < b then .error ⟨b, position, 1, .invalidStart⟩
    else
      let count := following b
      let more := takeFollowing (some b) count bs
      if more.length = count then do
        return character b more :: (← decodeFrom (position + 1 + count) (bs.drop count))
      else
        .error ⟨b, position, 1 + more.length,
          if more.length = bs.length then .unexpectedEnd else .invalidContinuation⟩
termination_by bytes.length
decreasing_by
  · exact Nat.lt_succ_self _
  · rw [List.length_drop, List.length_cons]
    omega

/-- The text that bytes store. -/
def decode (bytes : List UInt8) : Except DecodeError String :=
  (decodeFrom 0 bytes).map String.ofList

/-- The bytes that store a text. -/
def encode (text : String) : List UInt8 :=
  text.toUTF8.toList

theorem decodeFrom_ascii (position : Nat) {bytes : List UInt8} (h : ∀ b ∈ bytes, b < 0x80) :
    decodeFrom position bytes = .ok (bytes.map fun b => Char.ofNat b.toNat) := by
  induction bytes generalizing position with
  | nil => simp [decodeFrom]
  | cons b bs ih =>
    rw [decodeFrom, if_pos (h b (by simp)), ih _ fun b hb => h b (by simp [hb])]
    rfl

end ContrastAudit.Text.Utf8
