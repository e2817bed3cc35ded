import Hush.Run.Event
import Hush.Text.Alphanumeric

/-!
# Log filters

A filter is written as directives with commas between them. A directive is a level, which holds for
every event, or a target, a sign of equality and a level, which hold for the targets that start
with it. What no directive concerns is not let through.
-/

namespace Hush

namespace Level

/-- Grows with the amount of detail. -/
def rank : Level → Nat
  | error => 1
  | warn => 2
  | info => 3
  | debug => 4
  | trace => 5

def name : Level → String
  | error => "ERROR"
  | warn => "WARN"
  | info => "INFO"
  | debug => "DEBUG"
  | trace => "TRACE"

end Level

/-- The part of the program that an event comes from. -/
def Event.target : Event → String
  | .rootMissing _ => "omni_quiet::directory"
  | .skipped _ => "omni_quiet::directory"
  | .processing _ => "omni_quiet::directory"
  | .modified => "omni_quiet::directory"
  | .unchanged => "omni_quiet::directory"
  | .failed .. => "omni_quiet::commenter"
  | .revised .. => "omni_quiet::commenter"
  | .replaced .. => "omni_io::sync"

structure Directive where
  /-- The start of the targets concerned. -/
  target : String
  /-- The most detailed level that is let through. -/
  limit : Option Level

abbrev Filter := List Directive

namespace Filter

/-- The number that a word writes in decimal digits, with or without a plus sign. -/
def number? (word : String) : Option Nat :=
  let digits :=
    match word.toList with
    | '+' :: rest => rest
    | chars => chars
  if digits.isEmpty || !digits.all Char.isDigit then none
  else some (digits.foldl (fun number digit => 10 * number + (digit.toNat - '0'.toNat)) 0)

/-- The limit of a rank. Rank zero lets nothing through. -/
def limitOfRank? : Nat → Option (Option Level)
  | 0 => some none
  | 1 => some (some .error)
  | 2 => some (some .warn)
  | 3 => some (some .info)
  | 4 => some (some .debug)
  | 5 => some (some .trace)
  | _ => none

/-- A level, given by its rank or by its name in small letters or capitals, or `off`. -/
def limit? (word : String) : Option (Option Level) :=
  match number? word with
  | some rank => limitOfRank? rank
  | none =>
    match word.map Char.toLower with
    | "off" => some none
    | "error" => some (some .error)
    | "warn" => some (some .warn)
    | "info" => some (some .info)
    | "debug" => some (some .debug)
    | "trace" => some (some .trace)
    | _ => none

/-- A character that a directive may start with. -/
def isOpening (c : Char) : Bool := Text.isAlphanumeric c || c == '_' || c == ':' || c == '-'

/-- A word that names no level is a target, and lets everything from there through. -/
def directiveOfWord (word : String) : Directive :=
  match limit? word with
  | some limit => ⟨"", limit⟩
  | none => ⟨word, some .trace⟩

/-- A target with an empty level lets everything from there through. -/
def directiveOfTarget? (target level : String) : Option Directive :=
  if level.isEmpty then some ⟨target, some .trace⟩ else (limit? level).map (⟨target, ·⟩)

/-- Only the start of a directive is restricted, and a target has no opening bracket. Blanks before
a word are part of it, so it names no level; before a target they are refused. -/
def directive? (text : String) : Option Directive :=
  let target := text.toList.takeWhile (· != '=')
  if (Text.trimStart target).head?.any isOpening && !target.contains '[' then
    match text.toList.dropWhile (· != '=') with
    | [] => some (directiveOfWord text)
    | _ :: level =>
      if target.head?.any Text.isBlank then none
      else directiveOfTarget? (.ofList target) (.ofList level)
  else none

/-- Lets the program's own progress through, and warnings about files. -/
def standard : Filter := [⟨"omni_quiet", some .info⟩, ⟨"omni_io", some .warn⟩]

def ofText? (text : String) : Option Filter :=
  ((text.toList.splitOn ',').map String.ofList |>.filter (!·.isEmpty)).mapM directive?

/-- The standard filter stands in for one that is missing or cannot be read. -/
def ofText (text : Option String) : Filter := (text.bind ofText?).getD standard

/-- The directive that decides, of two that concern the same target and stand in this order. -/
def prefer (earlier : Option Directive) (later : Directive) : Option Directive :=
  match earlier with
  | none => some later
  | some found =>
    if found.target.length ≤ later.target.length then some later else some found

/-- The last of the most specific directives for a target. -/
def find? (filter : Filter) (target : String) : Option Directive :=
  (List.filter (·.target.toList.isPrefixOf target.toList) filter).foldl prefer none

def admits (filter : Filter) (event : Event) : Bool :=
  match (filter.find? event.target).bind (·.limit) with
  | some limit => event.level.rank ≤ limit.rank
  | none => false

end Filter

end Hush
