import Flatsheet.Sheet.Rule

/-!
Flat rules written as CSS, one line for each rule and media condition. The declarations of the root
stay bare, but its custom properties go into a `:root` rule.
-/

namespace Flatsheet.Css

/-- Whether a declaration makes a custom property, or has a use of one for its value. -/
def isCustomProperty (declaration : Text) : Bool :=
  declaration.startsWith ['$'] || declaration.startsWith "--" || declaration.startsWith "var(" ||
    match Text.partition ':' declaration with
    | (_ :: _, some value) => value.trimLeft.startsWith "var("
    | _ => false

/-- A body between braces. -/
def braced (body : Text) : Text := "\x7b ".toList ++ body ++ " \x7d".toList

def rootLines (rule : Rule) : List Text :=
  let (custom, bare) := rule.declarations.partition isCustomProperty
  bare ++ if custom = [] then [] else [":root ".toList ++ braced (Text.join [' '] custom)]

/-- The elements of a list without repetition, in the order in which they first come. -/
def distinct : List Text → List Text
  | [] => []
  | text :: texts => text :: (distinct texts).filter (· ≠ text)

/-- The texts of the selectors that hold under a media condition, each once. -/
def textsUnder (selectors : List Selector) (media : Text) : List Text :=
  distinct ((selectors.filter (·.media = media)).map Selector.text |>.filter (· ≠ []))

/-- The declarations under their selectors and their media condition. -/
def line (body : Text) (texts : List Text) (media : Text) : Text :=
  let block := if texts = [] then body else Text.join ", " texts ++ ' ' :: braced body
  if media = [] then block else "@media ".toList ++ media ++ ' ' :: braced block

def ruleLines (rule : Rule) : List Text :=
  (distinct (rule.selectors.map Selector.media)).map fun media =>
    line (Text.join [' '] rule.declarations) (textsUnder rule.selectors media) media

/-- Only a rule with selectors and declarations is written. -/
def isWritten (rule : Rule) : Bool := rule.selectors ≠ [] && rule.declarations ≠ []

/-- The lines of flat rules, of which the first is the root. It is written as a rule like the others
unless it is `implicit`. -/
def lines (implicit : Bool) : List Rule → List Text
  | [] => []
  | root :: rules =>
      (if !isWritten root then [] else if implicit then rootLines root else ruleLines root) ++
        (rules.filter isWritten).flatMap ruleLines

def ofLines (lines : List Text) : Text := lines.flatMap (· ++ ['\n'])

def render (implicit : Bool) (rules : List Rule) : Text := ofLines (lines implicit rules)

/-- The CSS of a sheet. With a root selector its bare declarations become a rule of that selector.
-/
def ofTokens (selector : Option Text) (tokens : List Token) : Text :=
  render (selector.getD [] = []) (Rule.ofTokens selector tokens).1.flatten

end Flatsheet.Css
