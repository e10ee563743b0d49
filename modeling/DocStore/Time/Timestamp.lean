import DocStore.Number.Digits
import DocStore.Time.Calendar

/-!
# Timestamps

An instant is a number of seconds since 1970 in UTC and the nanoseconds after
it. A leap second shares its second with the one before and is told apart by a
billion nanoseconds or more, which only the last second of a minute can have.
The text form is RFC 3339 in UTC.
-/

set_option autoImplicit false

namespace DocStore

def nanosPerSecond : Nat := 1000000000

structure Timestamp where
  seconds : Int
  nanos : Nat
  nanos_lt : nanos < 2 * nanosPerSecond
  leap : nanosPerSecond ≤ nanos → seconds % 60 = 59
  deriving DecidableEq

namespace Timestamp

def make? (seconds : Int) (nanos : Nat) : Option Timestamp :=
  if h : nanos < 2 * nanosPerSecond ∧ (nanosPerSecond ≤ nanos → seconds % 60 = 59) then
    some ⟨seconds, nanos, h.1, h.2⟩
  else none

def date (t : Timestamp) : Date := .ofDayNumber (t.seconds / 86400)

def secondOfDay (t : Timestamp) : Nat := (t.seconds % 86400).toNat

def second (t : Timestamp) : Nat :=
  t.secondOfDay % 60 + if nanosPerSecond ≤ t.nanos then 1 else 0

def yearText (year : Int) : List Char :=
  if 0 ≤ year ∧ year ≤ 9999 then natPadded 4 year.natAbs
  else (if year < 0 then '-' else '+') :: natPadded 4 year.natAbs

def fractionText (nanos : Nat) : List Char :=
  if nanos = 0 then []
  else if nanos % 1000000 = 0 then '.' :: natPadded 3 (nanos / 1000000)
  else if nanos % 1000 = 0 then '.' :: natPadded 6 (nanos / 1000)
  else '.' :: natPadded 9 nanos

def renderChars (t : Timestamp) : List Char :=
  yearText t.date.year ++ '-' :: natPadded 2 t.date.month ++ '-' :: natPadded 2 t.date.day ++
    'T' :: natPadded 2 (t.secondOfDay / 3600) ++ ':' :: natPadded 2 (t.secondOfDay / 60 % 60) ++
    ':' :: natPadded 2 t.second ++ fractionText (t.nanos % nanosPerSecond) ++ ['Z']

def render (t : Timestamp) : String := String.ofList t.renderChars

def takeDigits? (width : Nat) (text : List Char) : Option (Nat × List Char) :=
  if (text.take width).length = width ∧ (text.take width).all Char.isDigit then
    some (digitsValue (text.take width), text.drop width)
  else none

def takeOneOf? (allowed : List Char) : List Char → Option (List Char)
  | [] => none
  | c :: rest => if c ∈ allowed then some rest else none

def nanosOfDigits (digits : List Char) : Nat :=
  digitsValue ((digits ++ List.replicate 9 '0').take 9)

def takeFraction? : List Char → Option (Nat × List Char)
  | '.' :: rest =>
    let (digits, rest) := rest.span Char.isDigit
    if digits = [] then none else some (nanosOfDigits digits, rest)
  | rest => some (0, rest)

def readOffset? : List Char → Option Int
  | ['Z'] => some 0
  | ['z'] => some 0
  | sign :: rest => do
    let (hour, rest) ← takeDigits? 2 rest
    let rest ← takeOneOf? [':'] rest
    let (minute, rest) ← takeDigits? 2 rest
    if hour ≤ 23 ∧ minute ≤ 59 ∧ rest = [] then
      if sign = '+' then some (hour * 60 + minute)
      else if sign = '-' ∨ sign = '\u2212' then some (-(hour * 60 + minute))
      else none
    else none
  | [] => none

def ofLocal? (date : Date) (hour minute second nanos : Nat) (offset : Int) : Option Timestamp :=
  if date.isValid ∧ hour ≤ 23 ∧ minute ≤ 59 ∧ second ≤ 60 then
    make? (date.dayNumber * 86400 + hour * 3600 + minute * 60 + min second 59 - offset * 60)
      (if second = 60 then nanos + nanosPerSecond else nanos)
  else none

def readChars? (text : List Char) : Option Timestamp := do
  let (year, text) ← takeDigits? 4 text
  let text ← takeOneOf? ['-'] text
  let (month, text) ← takeDigits? 2 text
  let text ← takeOneOf? ['-'] text
  let (day, text) ← takeDigits? 2 text
  let text ← takeOneOf? ['T', 't', ' '] text
  let (hour, text) ← takeDigits? 2 text
  let text ← takeOneOf? [':'] text
  let (minute, text) ← takeDigits? 2 text
  let text ← takeOneOf? [':'] text
  let (second, text) ← takeDigits? 2 text
  let (nanos, text) ← takeFraction? text
  let offset ← readOffset? text
  ofLocal? ⟨year, month, day⟩ hour minute second nanos offset

def read? (text : String) : Option Timestamp := readChars? text.toList

end Timestamp

end DocStore
