import Flatsheet.Conversion.Pipeline

/-!
An example sheet that uses every feature of the converter: comments, partial and extension imports,
variables, nested properties, nesting with `&`, mixins with defaults, spread parameters and content
blocks, and media conditions.
-/

namespace Flatsheet.Example

def basePath : Text := "styles/main.pscss"

def colors : Text := "$accent: #0a6;\n$muted: #777;\n"

def mixins : Text :=
  "@mixin rounded($radius: 4px) \x7b
  border-radius: $radius;
\x7d

@mixin card($padding, $shadow...) \x7b
  padding: $padding;
  box-shadow: $shadow;
  @include rounded();
  @content;
\x7d
"

def sheet : Text :=
  "// Example pscss sheet
@import \"_colors.pscss\";
@import \"mixins.pscss\";
@import \"print.css\";

/* page layout */
body \x7b
  margin: 0;
  font: \x7b
    family: \"Helvetica Neue\", sans-serif;
    size: 14px;
  \x7d

  a \x7b
    color: $accent;
    &:hover \x7b color: $muted; \x7d
  \x7d

  .card \x7b
    @include card(8px, 0 1px 2px #000) \x7b
      background: white;
    \x7d
  \x7d

  @media (max-width: 600px) \x7b
    margin: 4px;
  \x7d
\x7d
"

/-- What the sheet converts to. -/
def css : Text :=
  "@import \"print.css\";
:root \x7b --accent: #0a6; --muted: #777; \x7d
body \x7b margin: 0; font-family: \"Helvetica Neue\", sans-serif; font-size: 14px; \x7d
body a \x7b color: var(--accent); \x7d
body a:hover \x7b color: var(--muted); \x7d
body .card \x7b padding: 8px; box-shadow: 0 1px 2px #000; border-radius: 4px; background: white; \x7d
@media (max-width: 600px) \x7b body \x7b margin: 4px; \x7d \x7d
"

/-- The sheet and its partials. -/
def resources : Table Resource :=
  Table.ofList [("styles/colors.pscss", .text colors), ("styles/mixins.pscss", .text mixins),
    (basePath, .text sheet)]

/-- A fresh context for the sheet. -/
def context : Context :=
  Context.start (some basePath) Options.default Plugins.none (Library.ofTable resources) Cache.empty

end Flatsheet.Example
