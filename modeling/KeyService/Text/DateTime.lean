/-! Dates and times as RFC 3339 writes them, in universal time. -/
namespace KeyService.Text

def padded (width n : Nat) : String :=
  let digits := Nat.toDigits 10 n
  String.ofList (List.replicate (width - digits.length) '0' ++ digits)

structure Date where
  year : Int
  month : Nat
  day : Nat
  deriving DecidableEq, Repr

/-- The date of a day, counted from the first day of 1970. Years are counted from March on, so that
the leap day is the last day of a year, and in eras of four hundred years, which all have the same
number of days. -/
def Date.ofDay (day : Int) : Date :=
  let shifted := day + 719468
  let era := shifted.fdiv 146097
  let dayOfEra := (shifted - era * 146097).toNat
  let yearOfEra := (dayOfEra - dayOfEra / 1460 + dayOfEra / 36524 - dayOfEra / 146096) / 365
  let dayOfYear := dayOfEra - (365 * yearOfEra + yearOfEra / 4 - yearOfEra / 100)
  let m := (5 * dayOfYear + 2) / 153
  let month := if m < 10 then m + 3 else m - 9
  ⟨yearOfEra + era * 400 + if month ≤ 2 then 1 else 0, month, dayOfYear - (153 * m + 2) / 5 + 1⟩

/-- The text of a time in milliseconds since the epoch. The fraction is written unless it is
zero. -/
def dateTime (millis : Int) : String :=
  let date := Date.ofDay (millis.fdiv 86400000)
  let rest := (millis.fmod 86400000).toNat
  let seconds := rest / 1000
  let fraction := if rest % 1000 = 0 then "" else "." ++ padded 3 (rest % 1000)
  padded 4 date.year.toNat ++ "-" ++ padded 2 date.month ++ "-" ++ padded 2 date.day ++ "T"
    ++ padded 2 (seconds / 3600) ++ ":" ++ padded 2 (seconds / 60 % 60) ++ ":"
    ++ padded 2 (seconds % 60) ++ fraction ++ "+00:00"

example : dateTime 0 = "1970-01-01T00:00:00+00:00" := by decide +kernel
example : dateTime 951827696789 = "2000-02-29T12:34:56.789+00:00" := by decide +kernel

end KeyService.Text
