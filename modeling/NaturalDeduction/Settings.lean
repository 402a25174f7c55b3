import NaturalDeduction.Grading.Assignment
import NaturalDeduction.Toml.Decode

/-!
# Settings

How to grade, and how to print the report. Settings are written in TOML, in a file that is called
`fitch.toml`:

```
[grading]
similarity = true
parallel = false

[report]
color = false
```

What is left out has its default. The command line can turn similarity on and color off, but not the
other way round.

## Main definitions

* `Settings`, `Settings.default`
* `Settings.parse`: the settings that a text writes
-/

namespace NaturalDeduction

open Toml

/-- How to grade and to print. -/
structure Settings where
  grading : GradingOptions
  color : Bool
deriving DecidableEq, Repr

namespace Settings

/-- Reports are printed in color unless told otherwise. -/
def default : Settings := ⟨.default, true⟩

/-- The name of the file that settings are looked for in. -/
def fileName : String := "fitch.toml"

/-- How to grade, as a record writes it. -/
def decodeGrading (value : Value) : Except Misfit GradingOptions := do
  let fields ← value.fields ["similarity", "parallel"] 2
  let similarity ← optional Value.toBool fields "similarity"
  let parallel ← optional Value.toBool fields "parallel"
  return ⟨similarity.getD GradingOptions.default.similarity,
    parallel.getD GradingOptions.default.parallel⟩

/-- Whether to print in color, as a record writes it. -/
def decodeColor (value : Value) : Except Misfit Bool := do
  let fields ← value.fields ["color"] 1
  let color ← optional Value.toBool fields "color"
  return color.getD default.color

/-- The settings that a record writes. -/
def decode (value : Value) : Except Misfit Settings := do
  let fields ← value.fields ["grading", "report"] 2
  let grading ← optional decodeGrading fields "grading"
  let color ← optional decodeColor fields "report"
  return ⟨grading.getD default.grading, color.getD default.color⟩

/-- The settings that a text writes. -/
def parse (text : String) : Except Refusal Settings := Toml.read decode text

/-- The settings with similarity turned on, if asked for. -/
def withSimilarity (settings : Settings) (enabled : Bool) : Settings :=
  { settings with grading.similarity := settings.grading.similarity || enabled }

/-- The settings with color turned off, if asked for. -/
def withPlain (settings : Settings) (plain : Bool) : Settings :=
  { settings with color := settings.color && !plain }

end Settings

end NaturalDeduction
