import KeyRegistry.Fingerprint
import KeyRegistry.Pattern.Set
import KeyRegistry.Text.Shown

/-!
# Declaration documents

The document that registers a set of patterns: it extends a module by an interface with one
entry for each pattern, in ascending order. A set without members extends the module by nothing.

Main definitions:

* `Document.empty`, `Document.populated` — the two forms
* `Document.text` — the document of a set
* `Rendering.of` — the document with its fingerprint and the number of its patterns
-/

namespace KeyRegistry

namespace Document

/-- The lines that open every document. -/
def header : String :=
  "// @ts-nocheck\n// This file is auto-generated. Do not edit manually.\n\n"

/-- The document without patterns. -/
def empty (moduleName : String) : String :=
  let name := Text.quote moduleName
  header ++ "import " ++ name ++ ";\n\ndeclare module " ++ name ++ " \x7b\x7d\n"

/-- The entry of a pattern. -/
def entry (p : Pattern) : String :=
  "    " ++ Text.quote p.text ++ ": true;\n"

/-- The document with an entry for each pattern of a list. -/
def populated (patterns : List Pattern) (moduleName : String) : String :=
  let name := Text.quote moduleName
  header ++ "import " ++ name ++ ";\n\ndeclare module " ++ name ++
    " \x7b\n  export interface RegisteredPaths \x7b\n" ++ String.join (patterns.map entry) ++
    "  \x7d\n\x7d\n"

/-- The document of a set. -/
def text (patterns : PatternSet) (moduleName : String) : String :=
  if patterns.isEmpty then empty moduleName else populated patterns.members moduleName

end Document

/-- A document, its fingerprint and the number of its patterns. -/
structure Rendering where
  document : String
  fingerprint : Fingerprint
  count : Nat

/-- Renders a set of patterns. -/
def Rendering.of (patterns : PatternSet) (moduleName : String) : Rendering :=
  let document := Document.text patterns moduleName
  ⟨document, Fingerprint.ofText document, patterns.size⟩

end KeyRegistry
