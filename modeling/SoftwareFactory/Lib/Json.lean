import Mathlib.Data.Char

/-- A JSON value; numbers keep their text. -/
inductive Json where
  | null
  | bool (b : Bool)
  | number (text : List Char)
  | string (s : List Char)
  | array (items : List Json)
  | object (fields : List (List Char × Json))

namespace Json

/-- The value of a key; of equal keys the last one counts. -/
def get (fields : List (List Char × Json)) (key : List Char) : Option Json :=
  (fields.reverse.find? fun f => f.1 == key).map Prod.snd

def isBlank (c : Char) : Bool := c == ' ' || c == '\t' || c == '\n' || c == '\r'

def skipBlank (s : List Char) : List Char := s.dropWhile isBlank

def hexDigit (c : Char) : Option Nat :=
  if '0' ≤ c ∧ c ≤ '9' then some (c.toNat-48)
  else if 'a' ≤ c ∧ c ≤ 'f' then some (c.toNat-87)
  else if 'A' ≤ c ∧ c ≤ 'F' then some (c.toNat-55)
  else none

def hex4 (a b c d : Char) : Option Nat := do
  return (((← hexDigit a)*16+(← hexDigit b))*16+(← hexDigit c))*16+(← hexDigit d)

def escaped (c : Char) : Option Char :=
  match c with
  | '"' => some '"'
  | '\\' => some '\\'
  | '/' => some '/'
  | 'b' => some (Char.ofNat 8)
  | 'f' => some (Char.ofNat 12)
  | 'n' => some '\n'
  | 'r' => some '\r'
  | 't' => some '\t'
  | _ => none

/-- The code points of a string up to its closing quote, each half of an escaped surrogate
pair by itself. Control characters may stand unescaped. -/
def stringUnits : List Char → Option (List Nat × List Char)
  | [] => none
  | '"'::cs => some ([],cs)
  | '\\' :: 'u' :: a :: b :: c :: d :: cs => do
    let n ← hex4 a b c d
    let (us,rest) ← stringUnits cs
    return (n::us,rest)
  | '\\'::c::cs => do
    let e ← escaped c
    let (us,rest) ← stringUnits cs
    return (e.toNat::us,rest)
  | c::cs => do
    let (us,rest) ← stringUnits cs
    return (c.toNat::us,rest)

/-- A surrogate without its other half is no character; it is read as U+FFFD. -/
def unitChar (n : Nat) : Char := if 0xd800 ≤ n ∧ n < 0xe000 then Char.ofNat 0xfffd else Char.ofNat n

def joinUnits : List Nat → List Char
  | h::l::us =>
    if 0xd800 ≤ h ∧ h < 0xdc00 ∧ 0xdc00 ≤ l ∧ l < 0xe000 then
      Char.ofNat (0x10000+(h-0xd800)*0x400+(l-0xdc00))::joinUnits us
    else unitChar h::joinUnits (l::us)
  | [u] => [unitChar u]
  | [] => []

/-- A string, given what follows its opening quote. -/
def stringBody (s : List Char) : Option (List Char × List Char) :=
  (stringUnits s).map fun p => (joinUnits p.1,p.2)

def digits (s : List Char) : List Char × List Char := s.span Char.isDigit

/-- The integer part of a number. -/
def integerPart (s : List Char) : Option (List Char × List Char) :=
  match digits s with
  | ([],_) => none
  | ('0'::_,_) => some (['0'],s.drop 1)
  | p => some p

def fractionPart : List Char → List Char × List Char
  | '.'::cs =>
    match digits cs with
    | ([],_) => ([],'.'::cs)
    | (ds,rest) => ('.'::ds,rest)
  | s => ([],s)

def exponentPart : List Char → List Char × List Char
  | e::cs =>
    if e = 'e' ∨ e = 'E' then
      let (sign,ds) := match cs with
        | '+'::ds => (['+'],ds)
        | '-'::ds => (['-'],ds)
        | ds => ([],ds)
      match digits ds with
      | ([],_) => ([],e::cs)
      | (ds,rest) => (e::sign++ds,rest)
    else ([],e::cs)
  | [] => ([],[])

/-- A number. An integer of more than 4300 digits is refused. -/
def scanNumber (s : List Char) : Option (Json × List Char) := do
  let (sign,body) := match s with
    | '-'::cs => (['-'],cs)
    | cs => ([],cs)
  let (int,rest) ← integerPart body
  let (frac,rest) := fractionPart rest
  let (exp,rest) := exponentPart rest
  if frac = [] ∧ exp = [] ∧ 4300 < int.length then none
  else some (.number (sign++int++frac++exp),rest)

/-- The literals, in the order in which they are tried after a number. -/
def literal (s : List Char) : Option (Json × List Char) :=
  [("null",Json.null),("true",.bool true),("false",.bool false),("NaN",.number "NaN".toList),
    ("Infinity",.number "Infinity".toList),("-Infinity",.number "-Infinity".toList)].findSome?
    fun (name,v) => if name.toList <+: s then some (v,s.drop name.length) else none

mutual

/-- A value; the first argument bounds the nesting and the length. -/
def value : Nat → List Char → Option (Json × List Char)
  | 0,_ => none
  | _+1,'"'::cs => do
    let (s,rest) ← stringBody cs
    return (.string s,rest)
  | fuel+1,'{'::cs =>
    match skipBlank cs with
    | '}'::rest => some (.object [],rest)
    | rest => do
      let (fields,rest) ← members fuel rest
      return (.object fields,rest)
  | fuel+1,'['::cs =>
    match skipBlank cs with
    | ']'::rest => some (.array [],rest)
    | rest => do
      let (items,rest) ← elements fuel rest
      return (.array items,rest)
  | _+1,cs => (scanNumber cs).or (literal cs)

def members : Nat → List Char → Option (List (List Char × Json) × List Char)
  | 0,_ => none
  | fuel+1,'"'::cs => do
    let (key,rest) ← stringBody cs
    match skipBlank rest with
    | ':'::rest => do
      let (v,rest) ← value fuel (skipBlank rest)
      match skipBlank rest with
      | ','::rest => do
        let (fields,rest) ← members fuel (skipBlank rest)
        return ((key,v)::fields,rest)
      | '}'::rest => return ([(key,v)],rest)
      | _ => none
    | _ => none
  | _+1,_ => none

def elements : Nat → List Char → Option (List Json × List Char)
  | 0,_ => none
  | fuel+1,cs => do
    let (v,rest) ← value fuel cs
    match skipBlank rest with
    | ','::rest => do
      let (items,rest) ← elements fuel (skipBlank rest)
      return (v::items,rest)
    | ']'::rest => return ([v],rest)
    | _ => none

end

/-- `json.loads(s, strict=False)`; `none` is an exception. Every second call takes a character,
so the bound is not reached. -/
def loads (s : List Char) : Option Json := do
  let (v,rest) ← value (2*s.length+2) (skipBlank s)
  if skipBlank rest = [] then some v else none

end Json
