/-
  PageAssembly/CommandLine/Arguments.lean
  =======================================
  **Reading the command line.**

  The first argument names the command.  Options may stand anywhere before two hyphens
  alone, take their value behind an equals sign or as the next argument, and count as
  given last; everything else is a place on the line.  `render` takes the root and the
  contract, `tags` the file; anything else is wrong usage.
-/
import PageAssembly.CommandLine.Tags

namespace PageAssembly.CommandLine

/-- What the command line asks for. -/
inductive Command where
  | render (root : Text) (o : RenderOptions)
  | tags (file : Text)

/-- An option with its value, if the value stands behind an equals sign. -/
def splitOption (arg : Text) : Text × Option Text :=
  match arg.dropWhile (· != '=') with
  | [] => (arg, none)
  | _ :: value => (arg.takeWhile (· != '='), some value)

/-- A whole number with its sign. -/
def integer? : Text → Option Int
  | '-' :: s => (Text.natural? s).map fun n => -(Int.ofNat n)
  | '+' :: s => (Text.natural? s).map Int.ofNat
  | s => (Text.natural? s).map Int.ofNat

/-- The options with a value put in. -/
def setValue (o : RenderOptions) (name value : Text) : Option RenderOptions :=
  if name = "--func".toList then some { o with func := some value }
  else if name = "--path".toList then some { o with path := some value }
  else if name = "--viewer".toList then some { o with viewer := some value }
  else if name = "--max-continuations".toList then
    (integer? value).map fun n => { o with ceiling := n }
  else none

/-- The options with a switch thrown. -/
def setSwitch (o : RenderOptions) (name : Text) : Option RenderOptions :=
  if name = "--progressive".toList then some { o with progressive := true }
  else if name = "--no-progressive".toList then some { o with progressive := false }
  else if name = "--continuations".toList then some { o with continuations := true }
  else if name = "--no-continuations".toList then some { o with continuations := false }
  else if name = "--verbose".toList ∨ name = "-v".toList then some o
  else none

/-- Options and places of the `render` command. -/
def readRender (o : RenderOptions) (places : List Text) : List Text → Option (RenderOptions × List Text)
  | [] => some (o, places)
  | arg :: rest =>
    if arg = "--".toList then some (o, places ++ rest)
    else if arg.head? = some '-' ∧ arg ≠ ['-'] then
      match setSwitch o arg with
      | some o => readRender o places rest
      | none =>
        match splitOption arg, rest with
        | (name, some value), rest => (setValue o name value).bind fun o => readRender o places rest
        | (name, none), value :: rest =>
          (setValue o name value).bind fun o => readRender o places rest
        | (_, none), [] => none
    else readRender o (places ++ [arg]) rest

/-- What the arguments ask for. -/
def Command.ofArguments? (args : List Text) : Option Command :=
  match args with
  | [] => none
  | name :: rest =>
    if name = "render".toList then
      match readRender { contract := [] } [] rest with
      | some (o, [root, contract]) => some (.render root { o with contract })
      | _ => none
    else if name = "tags".toList then
      match rest.filter (· ≠ "--".toList) with
      | [file] => some (.tags file)
      | _ => none
    else none

def Row.line (r : Row) : Text :=
  ['\t'].intercalate [Text.decimal r.start, Text.decimal r.stop, r.kind, r.note]

def tagsReport : Option (List Row) → Report
  | none => .usage
  | some rows => ⟨0, rows.flatMap (fun r => r.line ++ ['\n']) ++ tagsOutput rows, []⟩

end PageAssembly.CommandLine
