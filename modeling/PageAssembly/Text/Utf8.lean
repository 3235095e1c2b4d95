/-
  PageAssembly/Text/Utf8.lean
  ===========================
  **Reading octets as UTF-8.**

  A machine that takes one octet at a time.  Between characters it has nothing in
  hand; inside a character it knows how many octets are missing, the bits so far, and
  which octets may come next (the first one after `E0`, `ED`, `F0` and `F4` is
  limited, so that no overlong form, surrogate or value above `10FFFF` is read).  An
  octet that does not fit ends what is in hand, which is then replaced by one U+FFFD,
  and is looked at again as a first octet.
-/
import PageAssembly.Text.Basic

namespace PageAssembly.Text.Utf8

/-- An unfinished character: octets missing, bits read, and the octets that may come next. -/
structure Unfinished where
  missing : Nat
  bits : Nat
  least : Nat
  most : Nat
deriving DecidableEq, Repr

/-- What stands for octets that are no character. -/
def replacement : Char := '\uFFFD'

/-- What a first octet gives: a character, an unfinished one, or nothing. -/
inductive First where
  | whole (c : Char)
  | begun (u : Unfinished)
  | bad
deriving DecidableEq, Repr

def first (b : Nat) : First :=
  if b < 0x80 then .whole (Char.ofNat b)
  else if b < 0xc2 then .bad
  else if b < 0xe0 then .begun ⟨1, b - 0xc0, 0x80, 0xbf⟩
  else if b = 0xe0 then .begun ⟨2, 0, 0xa0, 0xbf⟩
  else if b = 0xed then .begun ⟨2, 0xd, 0x80, 0x9f⟩
  else if b < 0xf0 then .begun ⟨2, b - 0xe0, 0x80, 0xbf⟩
  else if b = 0xf0 then .begun ⟨3, 0, 0x90, 0xbf⟩
  else if b < 0xf4 then .begun ⟨3, b - 0xf0, 0x80, 0xbf⟩
  else if b = 0xf4 then .begun ⟨3, 4, 0x80, 0x8f⟩
  else .bad

/-- The characters that the octets give after what is in hand. -/
def decodeFrom : Option Unfinished → List UInt8 → Text
  | none, [] => []
  | some _, [] => [replacement]
  | none, b :: bs =>
    match first b.toNat with
    | .whole c => c :: decodeFrom none bs
    | .begun u => decodeFrom (some u) bs
    | .bad => replacement :: decodeFrom none bs
  | some u, b :: bs =>
    let n := b.toNat
    if u.least ≤ n ∧ n ≤ u.most then
      let bits := u.bits * 64 + (n - 0x80)
      if u.missing ≤ 1 then Char.ofNat bits :: decodeFrom none bs
      else decodeFrom (some ⟨u.missing - 1, bits, 0x80, 0xbf⟩) bs
    else
      replacement ::
        match first n with
        | .whole c => c :: decodeFrom none bs
        | .begun v => decodeFrom (some v) bs
        | .bad => replacement :: decodeFrom none bs

/-- The text that the octets write, with one U+FFFD for every run that is no character. -/
def decode (bs : List UInt8) : Text := decodeFrom none bs

theorem decode_cons_ascii {b : UInt8} (h : b.toNat < 0x80) (bs : List UInt8) :
    decode (b :: bs) = Char.ofNat b.toNat :: decode bs := by
  simp [decode, decodeFrom, first, h]

end PageAssembly.Text.Utf8
