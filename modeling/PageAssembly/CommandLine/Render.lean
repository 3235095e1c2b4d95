/-
  PageAssembly/CommandLine/Render.lean
  ====================================
  **The `render` command.**

  Assembles a contract's page from a directory of files and prints it.  What went wrong
  on the way is told on the console: chunks that failed, continuations that failed, and
  the ceiling if it was reached.  A page that cannot be had at all ends with exit code
  1, a root that is no directory with exit code 2.
-/
import PageAssembly.Assembly
import PageAssembly.Site.Host
import PageAssembly.Text.Terminal

namespace PageAssembly.CommandLine

/-- What a command leaves behind: its exit code, its output, and its messages. -/
structure Report where
  exit : Nat
  output : Text
  console : List Text
deriving DecidableEq, Repr

/-- The output as it is printed: without control sequences unless a terminal shows it. -/
def Report.printed (r : Report) (terminal : Bool) : Text :=
  if terminal then r.output else Terminal.plain r.output

def Report.usage : Report := ⟨2, [], []⟩

/-- What the `render` command is asked for. -/
structure RenderOptions where
  contract : Text
  func : Option Text := none
  path : Option Text := none
  viewer : Option Text := none
  progressive : Bool := true
  continuations : Bool := true
  ceiling : Int := 100

namespace RenderOptions

/-- Cached includes count for thirty seconds; the page is assembled at one time. -/
def ttl : Int := 30

/-- No page is nested deeper than this. -/
def depth : Nat := 20000

/-- The loader runs two loads at once, in batches of three times two, and keeps 256 chunks. -/
def delivering (host : Host ω) (o : RenderOptions) : Delivery.Setting ω :=
  ⟨host, o.contract, 2, 3, fun _ _ => false⟩

/-- How the page is assembled, with tokens for its protected blocks. -/
def setting (token : Nat → Text) (host : Host ω) (o : RenderOptions) : Assembly.Setting ω Int where
  resolving := ⟨host, o.viewer, fun _ => 0, ttl, token⟩
  delivering := o.delivering host
  contract := o.contract
  depth := depth
  progressive := o.progressive

/-- How many pages are put in, and how many calls make a group. -/
def limits (o : RenderOptions) : Option Waterfall.Limits :=
  if o.continuations then some ⟨o.ceiling, 2, by decide⟩ else none

end RenderOptions

/-- An assembly at its start. -/
def startState : Assembly.State Unit Int where
  desk := ⟨⟨(), []⟩, .empty RenderOptions.ttl, 0, 0⟩
  delivery := .start 256 ⟨(), []⟩

def errorLine (e : Failure) : Text := "[red]Error:[/red] ".toList ++ e.message

def chunkLine (e : Failure) : Text := "[yellow]Chunk failed:[/yellow] ".toList ++ e.message

def continuationLine (f : Text × Failure) : Text :=
  "[yellow]Continuation ".toList ++ f.1 ++ " failed:[/yellow] ".toList ++ f.2.message

def ceilingLine (loaded : Nat) : Text :=
  "[yellow]Stopped after ".toList ++ Text.decimal loaded ++ " continuations[/yellow]".toList

def completedLines (c : Waterfall.Completed) : List Text :=
  c.failures.map continuationLine ++ if c.limitReached then [ceilingLine c.loaded] else []

/-- Renders a page of a site; the tokens should occur in none of its files. -/
def renderSite (token : Nat → Text) (site : Site) (o : RenderOptions) : Report :=
  let (r, s) := Assembly.page (o.setting token site.host) o.limits o.func o.path startState
  let chunkLines := s.delivery.reports.failures.map fun f => chunkLine f.1
  match r with
  | .error e => ⟨1, [], chunkLines ++ [errorLine e]⟩
  | .ok c => ⟨0, c.content ++ ['\n'], chunkLines ++ completedLines c⟩

/-- The `render` command on a tree of files, with the root at a path below it. -/
def render (token : Nat → Text) (tree : FileTree) (root : Text) (o : RenderOptions) : Report :=
  match tree.folderPath? (.inside []) [root] with
  | some place => renderSite token ⟨tree, place⟩ o
  | none => .usage

end PageAssembly.CommandLine
