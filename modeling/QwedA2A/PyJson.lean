/-
`json.dumps` as the gateway calls it: the key order, the escaping and the
separators are parameters, values the encoder does not know go through `str`.
-/
import QwedA2A.PyValue
import Mathlib.Data.List.Sort

namespace QwedA2A

namespace PyJson

/-- The arguments of `json.dumps` the gateway varies. -/
structure Style where
  sortKeys : Bool := false
  ensureAscii : Bool := true
  itemSeparator : PyStr := py ", "
  keySeparator : PyStr := py ": "

def hexDigit (n : ℕ) : PyChar :=
  if n % 16 < 10 then Fin.ofNat _ (0x30 + n % 16)
  else Fin.ofNat _ (0x57 + n % 16)

def unicodeEscape (n : ℕ) : PyStr :=
  py "\\u" ++
    [hexDigit (n / 4096), hexDigit (n / 256), hexDigit (n / 16), hexDigit n]

def escapeChar (ensureAscii : Bool) (c : PyChar) : PyStr :=
  if c.val = 0x22 then py "\\\""
  else if c.val = 0x5C then py "\\\\"
  else if c.val = 0x0A then py "\\n"
  else if c.val = 0x0D then py "\\r"
  else if c.val = 0x09 then py "\\t"
  else if c.val = 0x0C then py "\\f"
  else if c.val = 0x08 then py "\\b"
  else if c.val < 0x20 then unicodeEscape c.val
  else if !ensureAscii || c.val ≤ 0x7E then [c]
  else if c.val < 0x10000 then unicodeEscape c.val
  else
    let rest := c.val - 0x10000
    unicodeEscape (0xD800 + rest / 1024) ++ unicodeEscape (0xDC00 + rest % 1024)

def quote (ensureAscii : Bool) (s : PyStr) : PyStr :=
  py "\"" ++ s.flatMap (escapeChar ensureAscii) ++ py "\""

/-- A float's text: its `repr`, or the name of a special. -/
def floatText (value : PyNum) (repr : PyStr) : PyStr :=
  match value with
  | .nan => py "NaN"
  | .real none => py "-Infinity"
  | .real (some none) => py "Infinity"
  | .real (some (some _)) => repr

def keyText : PyVal → Except PyExc PyStr
  | .str s => .ok s
  | .float value repr => .ok (floatText value repr)
  | .bool true => .ok (py "true")
  | .bool false => .ok (py "false")
  | .pyNone => .ok (py "null")
  | .int n => intRepr n
  | _ => .error ⟨.typeError, py "keys must be str, int, float, bool or None"⟩

/-- The number a key compares as, for the numeric types. -/
def keyNumber : PyVal → Option PyNum
  | .int n => some (.rat n)
  | .bool true => some (.rat 1)
  | .bool false => some (.rat 0)
  | .float value _ => some value
  | _ => none

/-- `a <= b` between two keys of comparable types. -/
def keyLe (a b : PyVal) : Bool :=
  match a, b with
  | .str s, .str t => decide (s ≤ t)
  | a, b =>
      match keyNumber a, keyNumber b with
      | some x, some y => !decide (y < x)
      | _, _ => false

def isStrKey : PyVal → Bool
  | .str _ => true
  | _ => false

/-- `sorted(items)` by key: a TypeError as soon as two keys do not compare. -/
def sortItems {α : Type} (items : List (PyVal × α)) :
    Except PyExc (List (PyVal × α)) :=
  if items.length ≤ 1 || items.all (fun item => isStrKey item.1) ||
      items.all (fun item => (keyNumber item.1).isSome) then
    .ok (items.insertionSort fun a b => keyLe a.1 b.1 = true)
  else .error ⟨.typeError, py "'<' not supported between instances"⟩

def recursionExc : PyExc :=
  ⟨.recursionError, py "maximum recursion depth exceeded while encoding a JSON object"⟩

def objectText (style : Style)
    (members : List (PyVal × Except PyExc PyStr)) : Except PyExc PyStr := do
  let ordered ← if style.sortKeys then sortItems members else .ok members
  let parts ← ordered.mapM fun member => do
    let key ← keyText member.1
    let text ← member.2
    pure (quote style.ensureAscii key ++ style.keySeparator ++ text)
  pure (py "\x7b" ++ joinWith style.itemSeparator parts ++ py "\x7d")

mutual

/-- The encoder; `depth` is how many more containers may nest before the
interpreter gives up. -/
def encode (style : Style) (depth : ℕ) : PyVal → Except PyExc PyStr
  | .pyNone => .ok (py "null")
  | .bool true => .ok (py "true")
  | .bool false => .ok (py "false")
  | .int n => intRepr n
  | .float value repr => .ok (floatText value repr)
  | .str s => .ok (quote style.ensureAscii s)
  | .list items =>
      match depth with
      | 0 => .error recursionExc
      | depth + 1 => do
          let parts ← (encodeItems style depth items).mapM id
          pure (py "[" ++ joinWith style.itemSeparator parts ++ py "]")
  | .dict entries =>
      match depth with
      | 0 => .error recursionExc
      | depth + 1 => objectText style (encodeEntries style depth entries)
  | .other text =>
      match depth with
      | 0 => .error recursionExc
      | _ + 1 => .ok (quote style.ensureAscii text)

/-- The rendered items of a list, each with its own outcome. -/
def encodeItems (style : Style) (depth : ℕ) :
    List PyVal → List (Except PyExc PyStr)
  | [] => []
  | item :: rest => encode style depth item :: encodeItems style depth rest

/-- The rendered members of an object, under their keys. -/
def encodeEntries (style : Style) (depth : ℕ) :
    List (PyVal × PyVal) → List (PyVal × Except PyExc PyStr)
  | [] => []
  | (key, value) :: rest =>
      (key, encode style depth value) :: encodeEntries style depth rest

end

theorem encodeItems_eq_map (style : Style) (depth : ℕ) (items : List PyVal) :
    encodeItems style depth items = items.map (encode style depth) := by
  induction items with
  | nil => rfl
  | cons item rest ih => rw [encodeItems, ih, List.map_cons]

theorem encodeEntries_eq_map (style : Style) (depth : ℕ)
    (entries : List (PyVal × PyVal)) :
    encodeEntries style depth entries =
      entries.map fun entry => (entry.1, encode style depth entry.2) := by
  induction entries with
  | nil => rfl
  | cons entry rest ih => rw [encodeEntries, ih, List.map_cons]

/-- `json.dumps(payload, sort_keys=True, default=str)`. -/
def canonicalStyle : Style := { sortKeys := true }

/-- `json.dumps(payload, ensure_ascii=False, separators=(",", ":"),
default=str)`. -/
def compactStyle : Style :=
  { ensureAscii := false, itemSeparator := py ",", keySeparator := py ":" }

/-- Bytes of one character in UTF-8, surrogates passed through. -/
def utf8Length (c : PyChar) : ℕ :=
  if c.val < 0x80 then 1
  else if c.val < 0x800 then 2
  else if c.val < 0x10000 then 3
  else 4

/-- Length of `text.encode("utf-8", "surrogatepass")`. -/
def utf8Size (text : PyStr) : ℕ := (text.map utf8Length).sum

end PyJson

end QwedA2A
