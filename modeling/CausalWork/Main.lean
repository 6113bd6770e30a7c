import CausalWork.Command.Help
import CausalWork.Command.Reader
import CausalWork.Disk
import Std.Time.DateTime

namespace CausalWork.Main

def now : IO Timestamp := do
  let moment ← Std.Time.Timestamp.now
  let zone := Std.Time.TimeZone.ZoneRules.UTC
  let there := (Std.Time.DateTime.ofTimestamp moment zone).toPlainDateTime
  let date := Date.of? there.date.year.toInt there.date.month.toNat there.date.day.toNat
  let clock := PlainClock.of? there.time.hour.toNat there.time.minute.toNat there.time.second.toNat
    there.time.nanosecond.toNat
  match date, clock with
  | some date, some clock => return ⟨date, clock⟩
  | _, _ => throw (IO.userError "the clock shows no time")

def fresh : IO Uuid := do
  let bytes := (← IO.getRandomBytes 16).toList
  let digits := bytes.flatMap fun b => [Text.lastHex (b.toNat / 16), Text.lastHex b.toNat]
  match Uuid.ofRandom? digits with
  | some id => return id
  | none => throw (IO.userError "there are no random digits")

def surroundings : IO Surroundings := do
  return ⟨(← IO.getEnv "HOME").filter (!·.isEmpty), ← IO.getEnv "CAUSEWAY_HOME",
    ← IO.getEnv "CAUSEWAY_ARTIFACTS"⟩

def perform (c : Command) : IO UInt32 := do
  let around ← surroundings
  let here := Path.pieces (← IO.currentDir).toString
  let t ← Disk.surroundings (here.filter fun piece => !Path.isSilent piece)
  let config := (Config.load t around).toOption
  let handle ← match config with
    | some config => if c.usesPool then Disk.lock? config else pure none
    | none => pure none
  let t ← match config with
    | some config => Disk.addPlaces config t
    | none => pure t
  let r := c.run around t (← fresh) (← now)
  (t.edits r.tree).forM Disk.perform
  if let some handle := handle then handle.unlock
  IO.print r.out
  IO.eprint r.err
  return UInt32.ofNat r.exit.code

end CausalWork.Main

open CausalWork in
def main (args : List String) : IO UInt32 := do
  match Command.ofArgs args with
  | .ok c => Main.perform c
  | .error usage =>
    if usage.isWish then IO.print usage.message else IO.eprint usage.message
    return if usage.isWish then 0 else 2
