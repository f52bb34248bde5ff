/-
  Kenbak1.Notice

  What a machine tells its lamps. After every executed instruction it sends two notices, the
  output register and the halt flag; a halt flag changed from outside is sent at once.
-/

namespace Kenbak1

/-- A notice from the machine. -/
inductive Notice where
  /-- The output register holds a value. -/
  | out (value : UInt8)
  /-- The machine stands, or runs. -/
  | halt (halted : Bool)
  deriving DecidableEq

/-- Something that takes notices. -/
class Observer (σ : Type) where
  notify : σ → Notice → σ

/-- Nobody looks. -/
instance : Observer Unit where
  notify _ _ := ()

/-- Keeps every notice, oldest first. -/
structure Recorder where
  notices : Array Notice := #[]

namespace Recorder

instance : Observer Recorder where
  notify r notice := { notices := r.notices.push notice }

/-- The output values, oldest first. -/
def outputs (r : Recorder) : List UInt8 :=
  r.notices.toList.filterMap fun
    | .out value => some value
    | .halt _ => none

/-- The latest output value, if there was one. -/
def lastOutput? (r : Recorder) : Option UInt8 :=
  r.outputs.getLast?

end Recorder

end Kenbak1
