import NativeUi.Shell.Tool.Basic

/-!
# Dates

Moments are counted in seconds from the start of 1970, and shown in universal time.
-/
namespace NativeUi.Shell.Tool.Calendar

structure Day where
  year : Int
  month : Nat
  number : Nat

/-- The day so many days after the start of 1970. Years are taken to start with March, so that the
leap day is the last of its year. -/
def Day.ofCount (count : Int) : Day :=
  let shifted := count + 719468
  let era := shifted.fdiv 146097
  let inEra := (shifted - era * 146097).toNat
  let year := (inEra - inEra / 1460 + inEra / 36524 - inEra / 146096) / 365
  let inYear := inEra - (365 * year + year / 4 - year / 100)
  let fromMarch := (5 * inYear + 2) / 153
  let month := if fromMarch < 10 then fromMarch + 3 else fromMarch - 9
  ⟨year + era * 400 + (if month ≤ 2 then 1 else 0), month, inYear - (153 * fromMarch + 2) / 5 + 1⟩

def Day.count (d : Day) : Int :=
  let year := if d.month ≤ 2 then d.year - 1 else d.year
  let era := year.fdiv 400
  let inEra := (year - era * 400).toNat
  let fromMarch := if 2 < d.month then d.month - 3 else d.month + 9
  let inYear := (153 * fromMarch + 2) / 5 + d.number - 1
  era * 146097 + (inEra * 365 + inEra / 4 - inEra / 100 + inYear : Nat) - 719468

structure Moment where
  days : Int
  seconds : Nat

def Moment.ofCount (n : Int) : Moment := ⟨n.fdiv 86400, (n.fmod 86400).toNat⟩

def Moment.count (m : Moment) : Int := m.days * 86400 + m.seconds

def present : Moment := .ofCount 1704067200

def weekdays : List String := [
  "Sunday", "Monday", "Tuesday", "Wednesday", "Thursday", "Friday", "Saturday"]

def months : List String := [
  "January", "February", "March", "April", "May", "June", "July", "August", "September", "October",
  "November", "December"]

def short (s : String) : String := String.ofList (s.toList.take 3)

def padded (fill : Char) (width : Nat) (n : Nat) : String :=
  let s := Text.decimal n
  "".pushn fill (width - s.length) ++ s

def Moment.weekday (m : Moment) : Nat := ((m.days + 4).fmod 7).toNat

def Moment.day (m : Moment) : Day := .ofCount m.days

def Moment.dayOfYear (m : Moment) : Nat := (m.days - (Day.mk m.day.year 1 1).count + 1).toNat

def Moment.field? (m : Moment) (c : Char) : Option String :=
  let d := m.day
  let year := d.year.toNat
  let hour := m.seconds / 3600
  let half := if hour % 12 = 0 then 12 else hour % 12
  let weekday := (weekdays[m.weekday]?).getD ""
  let month := (months[d.month - 1]?).getD ""
  match c with
  | 'Y' => some (Text.decimal year)
  | 'C' => some (padded '0' 2 (year / 100))
  | 'y' => some (padded '0' 2 (year % 100))
  | 'm' => some (padded '0' 2 d.month)
  | 'd' => some (padded '0' 2 d.number)
  | 'e' => some (padded ' ' 2 d.number)
  | 'H' => some (padded '0' 2 hour)
  | 'k' => some (padded ' ' 2 hour)
  | 'I' => some (padded '0' 2 half)
  | 'l' => some (padded ' ' 2 half)
  | 'M' => some (padded '0' 2 (m.seconds / 60 % 60))
  | 'S' => some (padded '0' 2 (m.seconds % 60))
  | 'N' => some "000000000"
  | 's' => some (toString m.count)
  | 'p' => some (if hour < 12 then "AM" else "PM")
  | 'P' => some (if hour < 12 then "am" else "pm")
  | 'j' => some (padded '0' 3 m.dayOfYear)
  | 'a' => some (short weekday)
  | 'A' => some weekday
  | 'b' | 'h' => some (short month)
  | 'B' => some month
  | 'u' => some (Text.decimal (if m.weekday = 0 then 7 else m.weekday))
  | 'w' => some (Text.decimal m.weekday)
  | 'U' => some (padded '0' 2 ((m.dayOfYear + 6 - m.weekday) / 7))
  | 'W' => some (padded '0' 2 ((m.dayOfYear + 6 - (m.weekday + 6) % 7) / 7))
  | 'Z' => some "UTC"
  | 'z' => some "+0000"
  | 'q' => some (Text.decimal ((d.month - 1) / 3 + 1))
  | 'n' => some "\n"
  | 't' => some "\t"
  | '%' => some "%"
  | _ => none

def composite? (c : Char) : Option String :=
  match c with
  | 'F' => some "%Y-%m-%d"
  | 'T' | 'X' => some "%H:%M:%S"
  | 'D' | 'x' => some "%m/%d/%y"
  | 'R' => some "%H:%M"
  | 'r' => some "%I:%M:%S %p"
  | 'c' => some "%a %b %e %H:%M:%S %Y"
  | _ => none

def unpadded (s : String) : String :=
  match s.toList.dropWhile fun c => c = '0' || c = ' ' with
  | [] => "0"
  | cs => String.ofList cs

def Moment.format (m : Moment) : Nat → List Char → String
  | 0, _ => ""
  | _, [] => ""
  | fuel + 1, '%' :: '-' :: c :: cs =>
    unpadded ((m.field? c).getD "") ++ m.format fuel cs
  | fuel + 1, '%' :: c :: cs =>
    match m.field? c, composite? c with
    | some text, _ => text ++ m.format fuel cs
    | none, some whole => m.format fuel (whole.toList ++ cs)
    | none, none => "%" ++ c.toString ++ m.format fuel cs
  | fuel + 1, c :: cs => c.toString ++ m.format fuel cs

/-! ### Reading -/

def numbers? (separator : String) (s : String) : Option (List Nat) :=
  (s.splitOn separator).mapM natural?

def dayOf? (s : String) : Option Day := do
  match numbers? "-" s with
  | some [y, m, d] => if 1 ≤ m && m ≤ 12 && 1 ≤ d && d ≤ 31 then some ⟨y, m, d⟩ else none
  | _ => none

def secondsOf? (s : String) : Option Nat := do
  match numbers? ":" s with
  | some [h, m] => if h < 24 && m < 60 then some (h * 3600 + m * 60) else none
  | some [h, m, s] => if h < 24 && m < 60 && s < 60 then some (h * 3600 + m * 60 + s) else none
  | _ => none

def momentOf? (s : String) : Option Moment := do
  let text := String.ofList (s.toList.map fun c => if c = 'T' then ' ' else c)
  let words := (text.splitOn " ").filter fun w => w ≠ "" && w ≠ "UTC" && w ≠ "Z"
  match s.toList, words with
  | '@' :: '-' :: cs, _ => (Text.natOf? cs).map fun n => .ofCount (-(n : Int))
  | '@' :: cs, _ => (Text.natOf? cs).map fun n => .ofCount n
  | _, [day] => (dayOf? day).map fun d => ⟨d.count, 0⟩
  | _, [day, time] => do
    let d ← dayOf? day
    let seconds ← secondsOf? (String.ofList (time.toList.filter (· ≠ 'Z')))
    some ⟨d.count, seconds⟩
  | _, _ => none

def options : Options :=
  (Options.flags "uRI" [("utc", 'u'), ("universal", 'u'), ("date", 'd'), ("reference", 'r'),
    ("rfc-email", 'R'), ("iso-8601", 'I')]).withValues "dr"

end Calendar

def dateFormat (given : List Given) : String :=
  if has given 'R' then "%a, %d %b %Y %H:%M:%S %z"
  else if has given 'I' then "%Y-%m-%d"
  else "%a %b %e %H:%M:%S %Z %Y"

def date : Tool := withOptions Calendar.options 1 fun c given operands =>
  let show_ (format : String) : Work Nat := do
    let given? := (valueOf? given 'd').filter fun s => s ≠ "now" && s ≠ ""
    let moment? := given?.elim (some Calendar.present) Calendar.momentOf?
    match moment? with
    | none => failWith c 1 ("invalid date " ++ quote (given?.getD ""))
    | some m => do
      printLine (m.format (20 * format.length + 20) format.toList)
      return 0
  match operands with
  | [] => show_ (dateFormat given)
  | [f] =>
    match f.toList with
    | '+' :: format => show_ (String.ofList format)
    | _ => failWith c 1 ("invalid date " ++ quote f)
  | _ :: extra :: _ => misuse c 1 ("extra operand " ++ quote extra)

end NativeUi.Shell.Tool
