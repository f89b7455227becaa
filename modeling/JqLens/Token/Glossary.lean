import JqLens.Token.Basic

/-
  This file holds the glossary: what is known about each token
  text that has a fixed meaning in a filter. Texts such as
  `.name` or `.[1:3]`, of which there are infinitely many, are
  not in it.

  Key definitions include:
    * `Gloss`
    * `glossary`
    * `Gloss.find?`
    * `Gloss.keysOf`
-/

namespace JqLens

/- What the glossary says about one token text. -/
structure Gloss where
  category : Category
  description : String
  /- Longer documentation; empty when there is none. -/
  documentation : String
  deriving DecidableEq, Repr

namespace Gloss

------------------------------------------------------------
-- Entries
------------------------------------------------------------

/- Identity and access. -/
def accessEntries : List (String × Gloss) :=
  [
    (".", ⟨.access, "Identity: returns the input unchanged",
      "The simplest filter. Whatever comes in goes out."⟩),
    ("..", ⟨.access, "Recursive descent: every value at every depth",
      "Handy for searching deeply nested documents, e.g. `.. | numbers`."⟩),
    (".[]", ⟨.access, "Iterate: each element of an array or each value of an object",
      "Given [1,2,3] this outputs 1, 2 and 3 as separate results."⟩),
    (".[]?", ⟨.access, "Iterate (safe): like .[] but silent on non-iterable input",
      "Produces nothing instead of an error for null, strings or numbers."⟩)
  ]

/- Separators and brackets. -/
def structureEntries : List (String × Gloss) :=
  [
    ("|", ⟨.operator, "Pipe: stage separator, feeds the left output into the right filter",
      "Works like a Unix pipe. `.foo | .bar` is the same as `.foo.bar`."⟩),
    (",", ⟨.operator, "Comma: multiple outputs, runs both expressions",
      "`.a, .b` outputs .a and then .b."⟩),
    (";", ⟨.operator, "Argument separator for function calls",
      "jq separates function arguments with `;`, not commas."⟩),
    ("(", ⟨.operator, "Open group or function arguments",
      ""⟩),
    (")", ⟨.operator, "Close group or function arguments",
      ""⟩),
    ("[", ⟨.operator, "Start array construction",
      "`[expr]` collects every output of expr into one array."⟩),
    ("]", ⟨.operator, "End array construction",
      "`[expr]` collects every output of expr into one array."⟩),
    ("\x7b", ⟨.operator, "Start object construction",
      "`\x7bkey: expr\x7d` builds an object; `\x7bname\x7d` is short for `\x7bname: .name\x7d`."⟩),
    ("\x7d", ⟨.operator, "End object construction",
      "`\x7bkey: expr\x7d` builds an object; `\x7bname\x7d` is short for `\x7bname: .name\x7d`."⟩),
    (":", ⟨.operator, "Key/value separator in object construction",
      ""⟩),
    ("?", ⟨.operator, "Error suppression: drop errors from the preceding expression",
      "`.foo?` is `.foo` that never fails."⟩)
  ]

/- Comparison operators. -/
def comparisonEntries : List (String × Gloss) :=
  [
    ("==", ⟨.operator, "Equal: true when both sides are identical",
      "Compares any types, objects and arrays included."⟩),
    ("!=", ⟨.operator, "Not equal: true when the values differ",
      "The negation of ==."⟩),
    ("<", ⟨.operator, "Less than",
      "Ordering across types: null < false < true < numbers < strings < arrays < objects."⟩),
    (">", ⟨.operator, "Greater than",
      "Uses the same cross-type ordering as <."⟩),
    ("<=", ⟨.operator, "Less than or equal",
      ""⟩),
    (">=", ⟨.operator, "Greater than or equal",
      ""⟩)
  ]

/- Arithmetic operators. -/
def arithmeticEntries : List (String × Gloss) :=
  [
    ("+", ⟨.operator, "Add: sums numbers, concatenates strings and arrays, merges objects",
      "null + x is x."⟩),
    ("-", ⟨.operator, "Subtract: numbers, or remove elements from an array",
      "[1,2,3] - [2] is [1,3]."⟩),
    ("*", ⟨.operator, "Multiply: numbers, or deep-merge objects",
      "Multiplying two objects merges them recursively."⟩),
    ("/", ⟨.operator, "Divide: numbers, or split a string",
      "\"a,b,c\" / \",\" is [\"a\",\"b\",\"c\"]."⟩),
    ("%", ⟨.operator, "Modulo: remainder after division",
      ""⟩)
  ]

/- Assignment and update operators. -/
def assignmentEntries : List (String × Gloss) :=
  [
    ("=", ⟨.operator, "Assign: set the selected path to a value computed from the input",
      "`.a = .b` copies .b into .a."⟩),
    ("|=", ⟨.operator, "Update: apply a filter to the selected value in place",
      "`.a |= . + 1` increments .a."⟩),
    ("+=", ⟨.operator, "Add-update: shorthand for |= . + value",
      "`.a += 1` is `.a |= . + 1`."⟩),
    ("-=", ⟨.operator, "Subtract-update",
      "`.a -= 1`"⟩),
    ("*=", ⟨.operator, "Multiply-update",
      ""⟩),
    ("/=", ⟨.operator, "Divide-update",
      ""⟩),
    ("%=", ⟨.operator, "Modulo-update",
      ""⟩),
    ("//=", ⟨.operator, "Alternative-update: set only when the value is null or false",
      "`.a //= 0` fills in a default."⟩),
    ("//", ⟨.operator, "Alternative: use the right side when the left is null or false",
      "`.foo // \"default\"` behaves like null coalescing."⟩),
    ("?//", ⟨.operator, "Destructuring alternative: try the next pattern on failure",
      "`. as [$a] ?// $a | ...`"⟩)
  ]

/- Words of logic. -/
def logicEntries : List (String × Gloss) :=
  [
    ("and", ⟨.keyword, "Logical AND: true when both operands are truthy",
      "Only null and false are falsy."⟩),
    ("or", ⟨.keyword, "Logical OR: true when either operand is truthy",
      ""⟩),
    ("not", ⟨.keyword, "Logical NOT: inverts truthiness",
      "`null | not` is true, `0 | not` is false."⟩)
  ]

/- Words of control flow. -/
def controlEntries : List (String × Gloss) :=
  [
    ("if", ⟨.keyword, "Start a conditional: if COND then A elif COND then B else C end",
      "elif is optional."⟩),
    ("then", ⟨.keyword, "Then branch of a conditional",
      ""⟩),
    ("elif", ⟨.keyword, "Else-if branch",
      "Any number of elif branches may be chained."⟩),
    ("else", ⟨.keyword, "Else branch",
      "Optional since jq 1.7; required before that."⟩),
    ("end", ⟨.keyword, "End of an if or try block",
      ""⟩),
    ("try", ⟨.keyword, "Suppress errors: a failing expression produces no output",
      "`try .foo` swallows errors from .foo."⟩),
    ("catch", ⟨.keyword, "Handle errors: `.` inside catch is the error message",
      "`try .foo catch \"fallback\"`"⟩),
    ("as", ⟨.keyword, "Bind to a variable: EXPR as $name | ...",
      "`.foo as $x | ...` makes $x available downstream."⟩),
    ("def", ⟨.keyword, "Define a function: def name(args): body;",
      "Parameters are separated by `;`."⟩),
    ("reduce", ⟨.keyword, "Fold: reduce EXPR as $var (init; update)",
      "Loops over EXPR and accumulates a single result."⟩),
    ("foreach", ⟨.keyword, "Running fold: foreach EXPR as $var (init; update; extract)",
      "Like reduce but emits each intermediate state."⟩),
    ("label", ⟨.keyword, "Label for break: label $name | ...",
      "Pairs with break for early exit."⟩),
    ("break", ⟨.keyword, "Break out of a labeled expression",
      "`break $name` leaves the `label $name` scope."⟩),
    ("import", ⟨.keyword, "Import a module",
      ""⟩),
    ("include", ⟨.keyword, "Include a module's definitions",
      ""⟩)
  ]

/- Literal words. -/
def literalEntries : List (String × Gloss) :=
  [
    ("null", ⟨.literal, "JSON null",
      ""⟩),
    ("true", ⟨.literal, "JSON true",
      ""⟩),
    ("false", ⟨.literal, "JSON false",
      ""⟩)
  ]

/- General functions. -/
def coreEntries : List (String × Gloss) :=
  [
    ("length", ⟨.builtin, "Length: characters, elements, keys; null is 0",
      "\"hi\" gives 2, [1,2,3] gives 3, \x7b\x7d gives 0."⟩),
    ("utf8bytelength", ⟨.builtin, "Byte length of a string in UTF-8",
      ""⟩),
    ("keys", ⟨.builtin, "Sorted object keys, or array indices",
      "\x7b\"b\":1,\"a\":2\x7d gives [\"a\",\"b\"]."⟩),
    ("keys_unsorted", ⟨.builtin, "Object keys in insertion order",
      ""⟩),
    ("values", ⟨.builtin, "Select non-null values",
      ""⟩),
    ("type", ⟨.builtin, "Type name: null, boolean, number, string, array or object",
      ""⟩),
    ("empty", ⟨.builtin, "Produce no output at all",
      "`if .x then . else empty end`"⟩),
    ("error", ⟨.builtin, "Raise an error with the input as message",
      ""⟩)
  ]

/- Conversions. -/
def conversionEntries : List (String × Gloss) :=
  [
    ("tostring", ⟨.builtin, "Convert to a string",
      "42 gives \"42\"."⟩),
    ("tonumber", ⟨.builtin, "Parse a string as a number",
      "Fails on non-numeric strings."⟩),
    ("tojson", ⟨.builtin, "Serialize a value to a JSON string",
      ""⟩),
    ("fromjson", ⟨.builtin, "Parse a JSON string into a value",
      ""⟩),
    ("ascii_downcase", ⟨.builtin, "Lowercase ASCII letters",
      ""⟩),
    ("ascii_upcase", ⟨.builtin, "Uppercase ASCII letters",
      ""⟩),
    ("ascii", ⟨.builtin, "Codepoint to single-character string",
      ""⟩)
  ]

/- Functions on strings. -/
def stringEntries : List (String × Gloss) :=
  [
    ("ltrimstr", ⟨.builtin, "Remove a prefix if present",
      "\"hello\" | ltrimstr(\"hel\") gives \"lo\"."⟩),
    ("rtrimstr", ⟨.builtin, "Remove a suffix if present",
      "\"hello\" | rtrimstr(\"lo\") gives \"hel\"."⟩),
    ("trim", ⟨.builtin, "Strip surrounding whitespace",
      ""⟩),
    ("ltrim", ⟨.builtin, "Strip leading whitespace",
      ""⟩),
    ("rtrim", ⟨.builtin, "Strip trailing whitespace",
      ""⟩),
    ("startswith", ⟨.builtin, "Test whether a string starts with the argument",
      ""⟩),
    ("endswith", ⟨.builtin, "Test whether a string ends with the argument",
      ""⟩),
    ("split", ⟨.builtin, "Split a string on a separator",
      "\"a,b\" | split(\",\") gives [\"a\",\"b\"]."⟩),
    ("join", ⟨.builtin, "Join array elements with a separator",
      "[\"a\",\"b\"] | join(\"-\") gives \"a-b\"."⟩),
    ("test", ⟨.builtin, "Test a string against a regex",
      "Pass flags as a second argument: test(\"re\"; \"i\")."⟩),
    ("match", ⟨.builtin, "Regex match details: offset, length, string, captures",
      ""⟩),
    ("capture", ⟨.builtin, "Named regex captures as an object",
      ""⟩),
    ("scan", ⟨.builtin, "Every regex match in a string",
      ""⟩),
    ("splits", ⟨.builtin, "Split a string on a regex, one output per piece",
      ""⟩),
    ("sub", ⟨.builtin, "Replace the first regex match",
      ""⟩),
    ("gsub", ⟨.builtin, "Replace every regex match",
      ""⟩),
    ("explode", ⟨.builtin, "String to array of codepoints",
      ""⟩),
    ("implode", ⟨.builtin, "Array of codepoints to string",
      ""⟩)
  ]

/- Functions on arrays, numbers, streams and the outside world. -/
def arrayEntries : List (String × Gloss) :=
  [
    ("map", ⟨.builtin, "Apply a filter to every element: [.[] | f]",
      "[1,2,3] | map(. * 2) gives [2,4,6]."⟩),
    ("map_values", ⟨.builtin, "Apply a filter to every value, objects included",
      ""⟩),
    ("select", ⟨.builtin, "Keep the input only when the condition is true",
      "`.[] | select(.age > 30)`"⟩),
    ("sort", ⟨.builtin, "Sort an array ascending",
      ""⟩),
    ("sort_by", ⟨.builtin, "Sort an array by an expression",
      "`sort_by(.age)`"⟩),
    ("reverse", ⟨.builtin, "Reverse an array or string",
      ""⟩),
    ("group_by", ⟨.builtin, "Group elements sharing the same expression value",
      ""⟩),
    ("unique", ⟨.builtin, "Sorted array without duplicates",
      ""⟩),
    ("unique_by", ⟨.builtin, "Keep one element per expression value",
      ""⟩),
    ("flatten", ⟨.builtin, "Flatten nested arrays",
      "flatten(1) flattens a single level."⟩),
    ("min", ⟨.builtin, "Smallest element",
      ""⟩),
    ("max", ⟨.builtin, "Largest element",
      ""⟩),
    ("min_by", ⟨.builtin, "Element with the smallest expression value",
      ""⟩),
    ("max_by", ⟨.builtin, "Element with the largest expression value",
      ""⟩),
    ("add", ⟨.builtin, "Add all elements together",
      "[1,2,3] | add gives 6."⟩),
    ("any", ⟨.builtin, "True if any element is truthy or matches",
      ""⟩),
    ("all", ⟨.builtin, "True if every element is truthy or matches",
      ""⟩),
    ("first", ⟨.builtin, "First output of an expression",
      ""⟩),
    ("last", ⟨.builtin, "Last output of an expression",
      ""⟩),
    ("nth", ⟨.builtin, "Nth output of an expression (0-based)",
      ""⟩),
    ("limit", ⟨.builtin, "Take the first N outputs",
      "`[limit(2; .[])]`"⟩),
    ("range", ⟨.builtin, "Generate a sequence of numbers",
      "range(2; 5) gives 2, 3, 4."⟩),
    ("indices", ⟨.builtin, "Every index where a value occurs",
      ""⟩),
    ("index", ⟨.builtin, "First index of a value",
      ""⟩),
    ("rindex", ⟨.builtin, "Last index of a value",
      ""⟩),
    ("transpose", ⟨.builtin, "Swap rows and columns of a 2D array",
      ""⟩),
    ("until", ⟨.builtin, "Loop until a condition holds",
      ""⟩),
    ("while", ⟨.builtin, "Loop while a condition holds, emitting each step",
      ""⟩),
    ("repeat", ⟨.builtin, "Apply a filter forever; pair with limit or first",
      ""⟩),
    ("recurse", ⟨.builtin, "Recursive descent with a custom step",
      ""⟩),
    ("walk", ⟨.builtin, "Apply a filter to every value, bottom-up",
      ""⟩),
    ("isnan", ⟨.builtin, "True for NaN",
      ""⟩),
    ("isinfinite", ⟨.builtin, "True for infinite numbers",
      ""⟩),
    ("nan", ⟨.builtin, "The NaN value",
      ""⟩),
    ("infinite", ⟨.builtin, "Positive infinity",
      ""⟩),
    ("isempty", ⟨.builtin, "True if an expression produces no output",
      ""⟩),
    ("builtins", ⟨.builtin, "Names of all builtin functions",
      ""⟩),
    ("floor", ⟨.builtin, "Round down",
      ""⟩),
    ("ceil", ⟨.builtin, "Round up",
      ""⟩),
    ("round", ⟨.builtin, "Round to the nearest integer",
      ""⟩),
    ("sqrt", ⟨.builtin, "Square root",
      ""⟩),
    ("abs", ⟨.builtin, "Absolute value",
      ""⟩),
    ("tostream", ⟨.builtin, "Value as a stream of [path, leaf] events",
      ""⟩),
    ("fromstream", ⟨.builtin, "Rebuild a value from stream events",
      ""⟩),
    ("input", ⟨.builtin, "Read the next input document",
      "Disabled in the sandbox."⟩),
    ("inputs", ⟨.builtin, "Read every remaining input document",
      "Disabled in the sandbox."⟩),
    ("debug", ⟨.builtin, "Print to stderr and pass the value through",
      "Disabled in the sandbox."⟩),
    ("stderr", ⟨.builtin, "Print to stderr without a newline",
      "Disabled in the sandbox."⟩),
    ("env", ⟨.builtin, "Environment variables as an object",
      "Disabled in the sandbox."⟩)
  ]

/- Functions on objects, paths, types and dates. -/
def objectEntries : List (String × Gloss) :=
  [
    ("has", ⟨.builtin, "True if the object has the key",
      ""⟩),
    ("in", ⟨.builtin, "True if the input key exists in the argument",
      ""⟩),
    ("contains", ⟨.builtin, "True if the input contains the argument",
      ""⟩),
    ("inside", ⟨.builtin, "True if the input is contained in the argument",
      ""⟩),
    ("to_entries", ⟨.builtin, "Object to an array of \x7bkey, value\x7d",
      ""⟩),
    ("from_entries", ⟨.builtin, "Array of \x7bkey, value\x7d to an object",
      ""⟩),
    ("with_entries", ⟨.builtin, "to_entries | map(f) | from_entries",
      "`with_entries(select(.value > 1))`"⟩),
    ("del", ⟨.builtin, "Delete a path",
      "\x7b\"a\":1,\"b\":2\x7d | del(.a) gives \x7b\"b\":2\x7d."⟩),
    ("getpath", ⟨.builtin, "Value at a path array",
      ""⟩),
    ("setpath", ⟨.builtin, "Set the value at a path array",
      ""⟩),
    ("delpaths", ⟨.builtin, "Delete several paths",
      ""⟩),
    ("path", ⟨.builtin, "Path to a value as an array of keys and indices",
      ""⟩),
    ("paths", ⟨.builtin, "Every path in the value",
      ""⟩),
    ("leaf_paths", ⟨.builtin, "Paths to non-container values",
      ""⟩),
    ("objects", ⟨.builtin, "Select objects",
      ""⟩),
    ("arrays", ⟨.builtin, "Select arrays",
      ""⟩),
    ("strings", ⟨.builtin, "Select strings",
      ""⟩),
    ("numbers", ⟨.builtin, "Select numbers",
      ""⟩),
    ("booleans", ⟨.builtin, "Select booleans",
      ""⟩),
    ("nulls", ⟨.builtin, "Select nulls",
      ""⟩),
    ("scalars", ⟨.builtin, "Select non-containers",
      ""⟩),
    ("iterables", ⟨.builtin, "Select arrays and objects",
      ""⟩),
    ("INDEX", ⟨.builtin, "Build a lookup object keyed by an expression",
      ""⟩),
    ("IN", ⟨.builtin, "True if the input is among the outputs of an expression",
      ""⟩),
    ("now", ⟨.builtin, "Current Unix time in seconds",
      ""⟩),
    ("todate", ⟨.builtin, "Unix time to ISO 8601 string",
      ""⟩),
    ("fromdate", ⟨.builtin, "ISO 8601 string to Unix time",
      ""⟩)
  ]

/- Format strings. -/
def formatEntries : List (String × Gloss) :=
  [
    ("@base64", ⟨.format, "Base64-encode a string",
      "\"hello\" | @base64 gives \"aGVsbG8=\"."⟩),
    ("@base64d", ⟨.format, "Base64-decode a string",
      ""⟩),
    ("@csv", ⟨.format, "Format an array as a CSV row",
      ""⟩),
    ("@tsv", ⟨.format, "Format an array as a tab-separated row",
      ""⟩),
    ("@html", ⟨.format, "Escape HTML entities",
      "\"<b>\" | @html gives \"&lt;b&gt;\"."⟩),
    ("@uri", ⟨.format, "Percent-encode for URLs",
      ""⟩),
    ("@sh", ⟨.format, "Quote for a POSIX shell",
      ""⟩),
    ("@json", ⟨.format, "JSON-encode as a string",
      "Same as tojson."⟩),
    ("@text", ⟨.format, "Plain text, same as tostring",
      ""⟩)
  ]

/- Predefined variables. -/
def variableEntries : List (String × Gloss) :=
  [
    ("$ENV", ⟨.var, "Environment variables object",
      "Disabled in the sandbox."⟩),
    ("$__loc__", ⟨.var, "Current source location \x7bfile, line\x7d",
      ""⟩)
  ]

end Gloss

/- Every entry, by token text, in reading order. -/
def glossary : List (String × Gloss) :=
  Gloss.accessEntries ++ Gloss.structureEntries ++ Gloss.comparisonEntries ++
    Gloss.arithmeticEntries ++ Gloss.assignmentEntries ++ Gloss.logicEntries ++
    Gloss.controlEntries ++ Gloss.literalEntries ++ Gloss.coreEntries ++
    Gloss.conversionEntries ++ Gloss.stringEntries ++ Gloss.arrayEntries ++
    Gloss.objectEntries ++ Gloss.formatEntries ++ Gloss.variableEntries

namespace Gloss

------------------------------------------------------------
-- Look-up
------------------------------------------------------------

/- The entry of a token text. -/
def find? (key : String) : Option Gloss :=
  glossary.lookup key

/- The token texts of a category, in reading order. -/
def keysOf (category : Category) : List String :=
  (glossary.filter fun entry => entry.2.category == category).map (·.1)

end Gloss

end JqLens
