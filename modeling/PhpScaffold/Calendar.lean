namespace PhpScaffold

def padNumber (width n : Nat) : String :=
  let ds := Nat.toDigits 10 n
  .ofList (List.replicate (width - ds.length) '0' ++ ds)

structure Date where
  year : Nat
  month : Nat
  day : Nat
  deriving DecidableEq

namespace Date

def isLeap (year : Nat) : Bool := year % 4 = 0 && (year % 100 ≠ 0 || year % 400 = 0)

def daysIn (year month : Nat) : Nat :=
  if month = 2 then if isLeap year then 29 else 28
  else if month = 4 ∨ month = 6 ∨ month = 9 ∨ month = 11 then 30
  else 31

def number (d : Date) : Nat :=
  let before := d.year - 1
  d.year * 365 + (if d.year = 0 then 0 else before / 4 - before / 100 + before / 400 + 1) +
    (List.range (d.month - 1)).foldl (fun n m => n + daysIn d.year (m + 1)) 0 + d.day

def text (d : Date) : String :=
  padNumber 4 d.year ++ "-" ++ padNumber 2 d.month ++ "-" ++ padNumber 2 d.day

end Date

structure Span where
  days : Int
  seconds : Int
  deriving DecidableEq

namespace Span

def ofSeconds (n : Int) : Span := ⟨n / 86400, n % 86400⟩

def inspect (s : Span) : String :=
  let parts := (if s.days = 0 then [] else ["days=" ++ toString s.days]) ++
    if s.seconds = 0 then [] else ["seconds=" ++ toString s.seconds]
  "datetime.timedelta(" ++ (if parts.isEmpty then "0" else ", ".intercalate parts) ++ ")"

end Span

structure Moment where
  date : Date
  hour : Nat
  minute : Nat
  second : Nat
  micro : Nat := 0
  ahead : Option Int := none
  deriving DecidableEq

namespace Moment

def clock (m : Moment) : Int := m.date.number * 86400 + m.hour * 3600 + m.minute * 60 + m.second

def same (m n : Moment) : Bool :=
  match m.ahead, n.ahead with
  | some a, some b => m.clock - a = n.clock - b && m.micro = n.micro
  | none, none => m = n
  | _, _ => false

def aheadText (n : Int) : String :=
  (if n < 0 then "-" else "+") ++ padNumber 2 (n.natAbs / 3600) ++ ":" ++ padNumber 2 (n.natAbs / 60 % 60)

def text (m : Moment) : String :=
  m.date.text ++ " " ++ padNumber 2 m.hour ++ ":" ++ padNumber 2 m.minute ++ ":" ++ padNumber 2 m.second ++
    (if m.micro = 0 then "" else "." ++ padNumber 6 m.micro) ++ (m.ahead.map aheadText).getD ""

def aheadInspect (n : Int) : String :=
  ", tzinfo=" ++ if n = 0 then "datetime.timezone.utc"
    else "datetime.timezone(" ++ (Span.ofSeconds n).inspect ++ ")"

end Moment

inductive TimeFault
  | year (n : Nat)
  | month
  | day
  | hour
  | minute
  | second
  | ahead (seconds : Int)
  deriving DecidableEq

def TimeFault.message : TimeFault → String
  | year n => "year " ++ toString n ++ " is out of range"
  | month => "month must be in 1..12"
  | day => "day is out of range for month"
  | hour => "hour must be in 0..23"
  | minute => "minute must be in 0..59"
  | second => "second must be in 0..59"
  | ahead seconds =>
    "offset must be a timedelta strictly between -timedelta(hours=24) and timedelta(hours=24), not " ++
      (Span.ofSeconds seconds).inspect ++ "."

def Date.check (d : Date) : Except TimeFault Unit := do
  if d.year = 0 ∨ 9999 < d.year then throw (.year d.year)
  if d.month = 0 ∨ 12 < d.month then throw .month
  if d.day = 0 ∨ Date.daysIn d.year d.month < d.day then throw .day

def Moment.check (m : Moment) : Except TimeFault Unit := do
  match m.ahead with
  | some n => if 86400 ≤ n.natAbs then throw (.ahead n)
  | none => pure ()
  m.date.check
  if 23 < m.hour then throw .hour
  if 59 < m.minute then throw .minute
  if 59 < m.second then throw .second

def Date.inspect (d : Date) : String :=
  "datetime.date(" ++ ", ".intercalate ([d.year, d.month, d.day].map toString) ++ ")"

def Moment.inspect (m : Moment) : String :=
  let rest := if m.micro ≠ 0 then [m.second, m.micro] else if m.second ≠ 0 then [m.second] else []
  "datetime.datetime(" ++
    ", ".intercalate (([m.date.year, m.date.month, m.date.day, m.hour, m.minute] ++ rest).map toString) ++
    (m.ahead.map aheadInspect).getD "" ++ ")"

end PhpScaffold
