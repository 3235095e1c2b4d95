/-
  PageAssembly/Verbatim.lean
  ==========================
  **Protected blocks.**

  Text between `noparse` brackets is shown as it stands.  Before a page is worked on,
  every block is swapped for an opaque placeholder; afterwards the inner text goes
  back without its outer brackets.  Brackets nest and are read in any letter case; a
  closing bracket with nothing open is plain text, and so is an opening one that is
  never closed, together with all that follows it.

  The placeholders of one page share a token, which the caller supplies and which
  should occur in no text.
-/
import PageAssembly.Directive.Basic
import PageAssembly.Text.Quoted
import PageAssembly.Text.Splice

namespace PageAssembly.Verbatim

/-! ### Brackets -/

/-- A bracket of a protected block. -/
inductive Bracket where
  | opening
  | closing
deriving DecidableEq, Repr

/-- A bracket, and the text behind it. -/
def readBracket (s : Text) : Option (Bracket × Text) := do
  let r ← Text.expect Directive.opening s
  let (bracket, r) := match r with
    | '/' :: r => (Bracket.closing, r)
    | r => (Bracket.opening, r)
  let r ← Text.expectCaseless "noparse".toList r
  let r ← Text.expect Directive.closing r
  pure (bracket, r)

theorem suffix_of_readBracket {s r : Text} {b : Bracket} (h : readBracket s = some (b, r)) :
    ∃ t : Text, s = '{' :: '{' :: t ∧ r <:+ t := by
  simp only [readBracket, Option.bind_eq_bind, Option.bind_eq_some_iff, Option.pure_def,
    Option.some.injEq, Prod.mk.injEq] at h
  obtain ⟨t, ht, u, hu, v, hv, _, rfl⟩ := h
  refine ⟨t, Text.expect_eq_some_iff.1 ht, ?_⟩
  obtain ⟨w, _, hw⟩ := Text.expectBy_eq_some hu
  have hvu : v <:+ u := ⟨Directive.closing, (Text.expect_eq_some_iff.1 hv).symm⟩
  split at hw
  · simp only at hw
    subst hw
    exact (hvu.trans ⟨w, rfl⟩).trans (List.suffix_cons _ _)
  · simp only at hw
    subst hw
    exact hvu.trans ⟨w, rfl⟩

def pattern : Pattern Bracket where
  read := readBracket
  nonempty := by
    intro s b r h
    obtain ⟨t, rfl, ht⟩ := suffix_of_readBracket h
    exact nonempty_of_suffix (ht.trans (List.suffix_cons _ _))

/-! ### Blocks -/

/-- The offsets of a block and of the text between its brackets. -/
structure Span where
  start : Nat
  innerStart : Nat
  innerStop : Nat
  stop : Nat
deriving DecidableEq, Repr

/-- The outermost blocks among the brackets, when `depth` brackets are open and the
    outermost of them stands at the offsets `opened`. -/
def outermost (depth : Nat) (opened : Nat × Nat) : List (Located Bracket) → List Span
  | [] => []
  | b :: bs =>
    match b.value, depth with
    | .opening, 0 => outermost 1 (b.start, b.stop) bs
    | .opening, d + 1 => outermost (d + 2) opened bs
    | .closing, 0 => outermost 0 opened bs
    | .closing, 1 => ⟨opened.1, opened.2, b.start, b.stop⟩ :: outermost 0 opened bs
    | .closing, d + 2 => outermost (d + 1) opened bs

/-- The outermost blocks of a text, in order. -/
def spans (s : Text) : List Span := outermost 0 (0, 0) (pattern.find s)

/-- A protected block: its placeholder, the protected text, and where it stood. -/
structure Block where
  id : Text
  inner : Text
  start : Nat
  stop : Nat
  source : Text
deriving DecidableEq, Repr

/-- The `n`th placeholder with a token. -/
def placeholder (token : Text) (n : Nat) : Text :=
  "___NOPARSE_".toList ++ token ++ '_' :: (Text.decimal n ++ "___".toList)

/-- The block at a span of a text. -/
def block (token s : Text) (n : Nat) (p : Span) : Block where
  id := placeholder token n
  inner := s.slice p.innerStart p.innerStop
  start := p.start
  stop := p.stop
  source := s.slice p.start p.stop

def blocks (token s : Text) : List Block :=
  (spans s).zipIdx.map fun p => block token s p.2 p.1

/-- The text with every block swapped for its placeholder. -/
def mask (token s : Text) : Text :=
  s.splice ((blocks token s).map fun b => ⟨b.start, b.stop, b.id⟩)

/-- The text with the first occurrence of each placeholder swapped for the inner text. -/
def restore (bs : List Block) (s : Text) : Text :=
  bs.foldl (fun s b => Text.replaceFirst b.id b.inner s) s

def hasBlocks (s : Text) : Bool := !(spans s).isEmpty

/-- The text as a protected block. -/
def wrap (s : Text) : Text :=
  Directive.opening ++ "noparse".toList ++ Directive.closing ++ s ++
    Directive.opening ++ "/noparse".toList ++ Directive.closing

/-- The token with a given number; numbers that lie closer than 2^48 have different ones. -/
def token (n : Nat) : Text := Text.hex 12 (n % 0x1000000000000)

end PageAssembly.Verbatim
