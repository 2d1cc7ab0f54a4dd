import Mathlib.Data.List.Sort
import Mathlib.Data.Rat.Defs

/-! # Values of the host language

The few things the broker takes from its host language: truthiness and trimming of strings, JSON
values, timestamps and sorting. Strings are `String`, an optional property is an `Option`, and a
property that a caller may send as the empty string keeps that value: the code tests presence
both by truthiness (`truthy`, false on `""`) and by `??` (`Option.getD` and `<|>`, which keep
`""`), and the two differ. -/

namespace A2ABroker

/-! ## Strings -/

/-- Truthiness of an optional string: present and not empty. -/
def truthy : Option String → Bool
  | some s => s != ""
  | none => false

/-- `a || b || …` on optional strings: the first truthy one, else the last. -/
def firstTruthy (a b : Option String) : Option String := if truthy a then a else b

theorem truthy_eq_true {o : Option String} : truthy o = true ↔ ∃ s, o = some s ∧ s ≠ "" := by
  cases o <;> simp [truthy]

/-- White space and line terminators, as `trim` and `\s` have them. -/
def isSpace (c : Char) : Bool :=
  let n := c.toNat
  (9 ≤ n && n ≤ 13) || n == 0x20 || n == 0xa0 || n == 0x1680 || (0x2000 ≤ n && n ≤ 0x200a) ||
    n == 0x2028 || n == 0x2029 || n == 0x202f || n == 0x205f || n == 0x3000 || n == 0xfeff

def trim (s : String) : String :=
  String.ofList (((s.toList.dropWhile isSpace).reverse.dropWhile isSpace).reverse)

/-- The trimmed text, unless it is blank (`normalizeWakeString` and its copies). -/
def trimmed (o : Option String) : Option String :=
  o.bind fun s => if trim s = "" then none else some (trim s)

theorem trimmed_ne_empty {o : Option String} {text : String} (h : trimmed o = some text) :
    text ≠ "" := by
  obtain ⟨given, -, hgiven⟩ := Option.bind_eq_some_iff.mp h
  split at hgiven
  · cases hgiven
  · cases hgiven
    assumption

/-- `[...new Set(values)]`: first occurrences, in order. -/
def uniqueIds : List String → List String := go []
where
  go (seen : List String) : List String → List String
    | [] => []
    | x :: xs => if seen.contains x then go seen xs else x :: go (x :: seen) xs

/-! ## Numbers -/

/-- A number of the host language. -/
inductive Number where
  | nan | negInf | fin (q : Rat) | posInf
  deriving DecidableEq, Inhabited

namespace Number

/-- `b >= a`. -/
def le : Number → Number → Bool
  | nan, _ | _, nan => false
  | negInf, _ | _, posInf => true
  | _, negInf | posInf, _ => false
  | fin p, fin q => p ≤ q

/-- `b > a`. -/
def lt (a b : Number) : Bool := a.le b && !b.le a

/-- `Math.max(a, b)`. -/
def max (a b : Number) : Number := if a = nan ∨ b = nan then nan else if a.le b then b else a

end Number

/-! ## JSON -/

/-- A JSON value. An absent property is `none` at the place that reads it, so `undefined` and
`null` stay apart. -/
inductive Json where
  | null
  | bool (b : Bool)
  | num (n : Rat)
  | str (s : String)
  | arr (items : List Json)
  | obj (fields : List (String × Json))
  deriving Inhabited

/-- A `Record<string, unknown>`: properties in insertion order. -/
abbrev JsonObject := List (String × Json)

namespace JsonObject

def get (o : JsonObject) (name : String) : Option Json := (o.find? fun p => p.1 = name).map (·.2)

/-- `{ ...o, name: v }`. -/
def set (name : String) (v : Json) : JsonObject → JsonObject
  | [] => [(name, v)]
  | p :: ps => if p.1 = name then (name, v) :: ps else p :: set name v ps

end JsonObject

/-- `a ?? b` on properties. -/
def Json.coalesce : Option Json → Option Json → Option Json
  | none, b | some .null, b => b
  | a, _ => a

/-- A property that is a string. -/
def Json.string? : Option Json → Option String
  | some (.str s) => some s
  | _ => none

/-- `readString`: a non-blank string property, trimmed. -/
def readString (v : Option Json) : Option String := trimmed (Json.string? v)

/-- Whether `String(value).trim()` is empty. An array prints its items separated by commas, with
nothing for `null`, so besides blank strings only an empty array and one-item arrays of such values
print as nothing. -/
def Json.printsBlank : Json → Bool
  | .str s => trim s = ""
  | .arr [] => true
  | .arr [.null] => true
  | .arr [v] => v.printsBlank
  | _ => false

/-! ## Timestamps -/

/-- A timestamp property. `iso t` is the text `new Date(t).toISOString()`, which is how the
broker writes every timestamp of its own; `text s` is a text sent by a caller. -/
inductive Timestamp where
  | iso (ms : Int)
  | text (s : String)
  deriving DecidableEq, Inhabited

/-- Days since 1970-01-01 to year, month and day of the proleptic Gregorian calendar. -/
def civilFromDays (days : Int) : Int × Nat × Nat :=
  let z := days + 719468
  let era := z / 146097
  let doe := (z - era * 146097).toNat
  let yoe := (doe - doe / 1460 + doe / 36524 - doe / 146096) / 365
  let doy := doe - (365 * yoe + yoe / 4 - yoe / 100)
  let mp := (5 * doy + 2) / 153
  let m := if mp < 10 then mp + 3 else mp - 9
  let y := era * 400 + yoe + (if m ≤ 2 then 1 else 0)
  (y, m, doy - (153 * mp + 2) / 5 + 1)

/-- `n` in decimal, padded with zeros to `width`. -/
def padded (width n : Nat) : String :=
  let digits := (Nat.toDigits 10 n)
  String.ofList (List.replicate (width - digits.length) '0' ++ digits)

/-- `new Date(ms).toISOString()`. -/
def toISOString (ms : Int) : String :=
  let (y, m, d) := civilFromDays (ms / 86400000)
  let t := (ms % 86400000).toNat
  let year := if 0 ≤ y ∧ y ≤ 9999 then padded 4 y.toNat
    else (if y < 0 then "-" else "+") ++ padded 6 y.natAbs
  year ++ "-" ++ padded 2 m ++ "-" ++ padded 2 d ++ "T" ++ padded 2 (t / 3600000) ++ ":" ++
    padded 2 (t / 60000 % 60) ++ ":" ++ padded 2 (t / 1000 % 60) ++ "." ++ padded 3 (t % 1000) ++
    "Z"

namespace Timestamp

def toText : Timestamp → String
  | iso ms => toISOString ms
  | text s => s

/-- Truthiness of a timestamp text. -/
def isSet : Option Timestamp → Bool
  | some (iso _) => true
  | some (text s) => s != ""
  | none => false

/-- `Date.parse`, given what the engine makes of a caller's text. -/
def parse (dateParse : String → Option Int) : Timestamp → Option Int
  | iso ms => some ms
  | text s => dateParse s

/-- `a < b` on timestamp texts. Two ISO texts compare as their times. -/
def before : Timestamp → Timestamp → Bool
  | iso a, iso b => a < b
  | a, b => a.toText < b.toText

end Timestamp

/-! ## Sorting -/

/-- `sortedCopy`: `cmp` is a comparator, asked for the order of a later element against an earlier
one. On a consistent comparator this is the stable sort. -/
def sortedCopy (cmp : α → α → Ordering) (items : List α) : List α :=
  items.insertionSort fun a b => cmp b a ≠ .lt

theorem mem_sortedCopy {cmp : α → α → Ordering} {items : List α} {a : α} :
    a ∈ sortedCopy cmp items ↔ a ∈ items := by
  simp [sortedCopy, List.mem_insertionSort]

end A2ABroker
