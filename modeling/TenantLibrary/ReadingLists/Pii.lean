import TenantLibrary.OpenLibrary.Client

/-!
Hashing and masking of personal data (`app/services/pii.py`).

Python's `str` is a sequence of code points; the masks are computed on the list of
characters. Lower-casing and the HMAC are taken as given functions.
-/

namespace TenantLibrary.ReadingLists

/-! ### Python's `str` -/

/-- `str.isspace` on one character. -/
def isSpace (c : Char) : Bool :=
  ('\t' ≤ c && c ≤ '\r') || ('\x1c' ≤ c && c ≤ ' ') || c = '\x85' || c = '\xa0' ||
    c = '\u1680' || ('\u2000' ≤ c && c ≤ '\u200a') || c = '\u2028' || c = '\u2029' ||
    c = '\u202f' || c = '\u205f' || c = '\u3000'

/-- `str.strip()`. -/
def strip (value : String) : String :=
  String.ofList ((value.toList.dropWhile isSpace).reverse.dropWhile isSpace).reverse

/-- `str.split()`: the non-empty runs between white space. -/
def words (text : List Char) : List (List Char) :=
  (text.splitOnP isSpace).filter fun part => !part.isEmpty

/-! ### Hashing -/

/-- `str.lower`, and HMAC-SHA256 with the server secret as a hexadecimal digest. -/
structure Hashing where
  lower : String → String
  hmac : String → String

/-- `value.strip().lower()`. -/
def Hashing.normalized (hashing : Hashing) (value : String) : String :=
  hashing.lower (strip value)

/-- `hash_pii`. -/
def hashPii (hashing : Hashing) (value : String) : String :=
  hashing.hmac (hashing.normalized value)

/-! ### Masking -/

/-- What `mask_email` raises. -/
inductive MaskError where
  /-- the number of parts at the `@` is not two -/
  | valueError
  /-- the first character of an empty part -/
  | indexError
deriving DecidableEq, Repr

/-- The mask of the local part, and of the first label of the domain: the first
character, and the last if there are more than two. -/
def maskPart (part : List Char) : Except MaskError (List Char) :=
  match part with
  | [] => .error .indexError
  | first :: rest =>
      if part.length ≤ 2 then .ok [first, '*']
      else .ok ([first] ++ List.replicate (part.length - 2) '*' ++ [rest.getLastD first])

/-- `mask_email`. -/
def maskEmail (email : String) : Except MaskError String :=
  match email.toList.splitOn '@' with
  | [localPart, domain] => do
      let domainParts := domain.splitOn '.'
      let maskedLocal ← maskPart localPart
      let maskedDomain ← maskPart (domainParts.headD [])
      let tld := List.intercalate ['.'] domainParts.tail
      return String.ofList (maskedLocal ++ ['@'] ++ maskedDomain ++ ['.'] ++ tld)
  | _ => .error .valueError

/-- The mask of one word of a name. -/
def maskWord (word : List Char) : List Char :=
  match word with
  | [] => []
  | first :: rest => first :: List.replicate rest.length '*'

/-- `mask_name`. -/
def maskName (name : String) : String :=
  String.ofList (List.intercalate [' '] ((words name.toList).map maskWord))

example : maskName "John Doe" = "J*** D**" := by decide +kernel
example : maskEmail "john.doe@example.com" = .ok "j******e@e*****e.com" := by decide +kernel

end TenantLibrary.ReadingLists
