import AgentRun.Text.Ascii

/-!
# The text of a duration

Messages show a duration, which is a whole number of milliseconds, in its largest fitting unit:
`0ns` for none, milliseconds below one second, and else seconds with as many decimals as are needed.
-/

namespace AgentRun

/-- The text of a duration in milliseconds. -/
def durationText (ms : Nat) : String :=
  if ms = 0 then "0ns"
  else if ms < 1000 then toString ms ++ "ms"
  else
    let decimals := ((Text.padded 3 (ms % 1000)).toList.reverse.dropWhile (· == '0')).reverse
    let tail := if decimals.isEmpty then "" else "." ++ String.ofList decimals
    toString (ms / 1000) ++ tail ++ "s"

end AgentRun
