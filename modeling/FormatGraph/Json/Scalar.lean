import FormatGraph.Json.Reader

/-! Readers of the parts of a JSON text that hold no other values: literals, numbers and strings.
Each begins after the character by which it was recognised, except for a number without a sign. -/

namespace FormatGraph.Reader

def letters : List Char → Reader Unit
  | [] => return ()
  | c :: cs => do
    match ← peek with
    | none => fail .endInValue
    | some d => if d = c then do eat; letters cs else failNext .expectedLetter

def isDigit (c : Char) : Bool := '0' ≤ c && c ≤ '9'

def digitValue (c : Char) : Nat := c.toNat - '0'.toNat

/-- Digits are taken into a number while it stays a 64-bit word; the others are given back. -/
def absorb (significand : Nat) : List Char → Nat × List Char
  | [] => (significand, [])
  | d :: ds =>
    let next := significand * 10 + digitValue d
    if next < UInt64.size then absorb next ds else (significand, d :: ds)

/-- The significand and the power of ten that the digits before and after the point come to. A digit
that does not fit counts towards the power before the point, and is left out after it. -/
def decimalOf (whole fraction : List Char) : Nat × Int :=
  let (significand, excess) := absorb 0 whole
  let (significand, rest) := absorb significand fraction
  (significand, (excess.length : Int) - ((fraction.length - rest.length : Nat) : Int))

/-- The digits of an exponent as a number below `2 ^ 31`, or else how many follow the one with which
it grew beyond that. -/
def exponentOf (value : Nat) : List Char → Except Nat Nat
  | [] => .ok value
  | d :: ds =>
    let next := value * 10 + digitValue d
    if next < UInt32.size / 2 then exponentOf next ds else .error ds.length

def integerOf? (negative : Bool) (whole : List Char) : Option Number :=
  match absorb 0 whole with
  | (n, []) =>
    if negative then
      if 0 < n ∧ n ≤ UInt64.size / 2 then some (.int (-n))
      else (Double.ofDecimal? true n 0).map .double
    else some (.int n)
  | (n, excess) => (Double.ofDecimal? negative n excess.length).map .double

def wholeDigits : Reader (List Char) := do
  match ← peek with
  | none => fail .endInValue
  | some c =>
    if c = '0' then do
      eat
      match ← peek with
      | some d => if isDigit d then failNext .invalidNumber else return ['0']
      | none => return ['0']
    else if isDigit c then takeWhile isDigit
    else failNext .invalidNumber

def fractionDigits? : Reader (Option (List Char)) := do
  match ← peek with
  | some '.' => do
    eat
    match ← takeWhile isDigit with
    | [] =>
      match ← peek with
      | none => failNext .endInValue
      | some _ => failNext .invalidNumber
    | digits => return some digits
  | _ => return none

def exponentMinus : Reader Bool := do
  match ← peek with
  | some '+' => do eat; return false
  | some '-' => do eat; return true
  | _ => return false

def peekDigit : Reader Unit := do
  match ← peek with
  | none => fail .endInValue
  | some d => if isDigit d then return () else failNext .invalidNumber

def exponentSign? : Reader (Option Bool) := do
  match ← peek with
  | some c =>
    if c = 'e' || c = 'E' then do
      eat
      let negative ← exponentMinus
      peekDigit
      return some negative
    else return none
  | none => return none

def orOutOfRange : Option Number → Reader Number
  | some n => return n
  | none => fail .numberOutOfRange

def number (negative : Bool) : Reader Number := do
  let whole ← wholeDigits
  let fraction? ← fractionDigits?
  let (significand, power) := decimalOf whole (fraction?.getD [])
  match ← exponentSign? with
  | some down => do
    let digits ← peekWhile isDigit
    match exponentOf 0 digits with
    | .ok exponent => do
      eatMany digits.length
      let power := if down then power - exponent else power + exponent
      orOutOfRange ((Double.ofDecimal? negative significand power).map .double)
    | .error rest =>
      if down || significand = 0 then do
        eatMany digits.length
        orOutOfRange ((Double.ofDecimal? negative 0 0).map .double)
      else failAfter (digits.length - rest) .numberOutOfRange
  | none =>
    if fraction?.isSome then
      orOutOfRange ((Double.ofDecimal? negative significand power).map .double)
    else orOutOfRange (integerOf? negative whole)

def hexValue? (c : Char) : Option Nat :=
  if isDigit c then some (digitValue c)
  else if 'a' ≤ c && c ≤ 'f' then some (c.toNat - 'a'.toNat + 10)
  else if 'A' ≤ c && c ≤ 'F' then some (c.toNat - 'A'.toNat + 10)
  else none

def hexQuad? : List Char → Option Nat
  | [a, b, c, d] => do
    return (((← hexValue? a) * 16 + (← hexValue? b)) * 16 + (← hexValue? c)) * 16 + (← hexValue? d)
  | _ => none

def hexQuad : Reader Nat := do
  match hexQuad? (← peekMany 4) with
  | some n => do eatMany 4; return n
  | none => failAfter 4 (if (← bytesLeft) < 4 then .endInString else .invalidEscape)

def isHighSurrogate (n : Nat) : Bool := 0xd800 ≤ n && n ≤ 0xdbff
def isLowSurrogate (n : Nat) : Bool := 0xdc00 ≤ n && n ≤ 0xdfff

def escapeMark (c : Char) : Reader Unit := do
  match ← peek with
  | none => fail .endInString
  | some d => if d = c then eat else failNext .endOfEscape

/-- The digits of a long escape, and the second escape that a high surrogate needs. -/
def longEscape : Reader Char := do
  let n ← hexQuad
  if isLowSurrogate n then fail .loneSurrogate
  else if isHighSurrogate n then do
    escapeMark '\\'
    escapeMark 'u'
    let m ← hexQuad
    if isLowSurrogate m then return Char.ofNat ((n - 0xd800) * 0x400 + (m - 0xdc00) + 0x10000)
    else fail .loneSurrogate
  else return Char.ofNat n

def shortEscape? : Char → Option Char
  | '"' => some '"'
  | '\\' => some '\\'
  | '/' => some '/'
  | 'b' => some '\x08'
  | 'f' => some '\x0c'
  | 'n' => some '\n'
  | 'r' => some '\r'
  | 't' => some '\t'
  | _ => none

def escape : Reader Char := do
  match ← peek with
  | none => fail .endInString
  | some 'u' => do eat; longEscape
  | some c =>
    match shortEscape? c with
    | some d => do eat; return d
    | none => failNext .invalidEscape

def stringStep (done : List Char) : Reader (List Char ⊕ List Char) := do
  match ← peek with
  | none => fail .endInString
  | some '"' => do eat; return .inr done.reverse
  | some '\\' => do eat; return .inl ((← escape) :: done)
  | some c => if c.toNat < 0x20 then failNext .controlCharacter else do eat; return .inl (c :: done)

def string : Reader String := do
  return String.ofList (← iterate stringStep [])

end FormatGraph.Reader
