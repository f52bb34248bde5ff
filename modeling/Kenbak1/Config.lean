/-
  Kenbak1.Config

  The settings of a machine, and their file: a JSON record in which every field may be
  missing.
-/
import Kenbak1.FileStore
import Kenbak1.Json
import Kenbak1.Json.Typed

namespace Kenbak1

open Json (Reader RecordForm)

/-- The settings of a machine. -/
structure Config where
  /-- Nominal clock, in cycles per second. -/
  clockHz : UInt32 := 1000000
  cyclesPerInstruction : UInt32 := 2000
  /-- Cycles of one burst. -/
  burstCycles : Int64 := 20000
  /-- Where programs without an address of their own are loaded. -/
  loadAddress : UInt8 := 0o004
  deriving DecidableEq

/-- Why a configuration cannot be read or written. -/
inductive ConfigError where
  | file (fault : FileFault)
  | content (error : Json.Error)
  deriving DecidableEq

/-- The report of an error. -/
def ConfigError.message : ConfigError → String
  | .file fault => "I/O error: " ++ fault.message
  | .content error => "invalid configuration: " ++ error.message

namespace Config

/-- Instructions per second at the nominal clock, rounded down. An instruction counts at
    least one cycle. -/
def instructionsPerSecond (config : Config) : Nat :=
  config.clockHz.toNat / max config.cyclesPerInstruction.toNat 1

/-! ## Stored form -/

/-- The settings as JSON. -/
def toJson (config : Config) : Json :=
  .object [
    ("clock_hz", .number config.clockHz.toNat),
    ("cycles_per_instruction", .number config.cyclesPerInstruction.toNat),
    ("burst_cycles", .number config.burstCycles.toInt),
    ("load_address", .number config.loadAddress.toNat)]

/-- How settings are read: missing ones keep their defaults. -/
def form : RecordForm Config where
  name := "MachineConfig"
  fields := [
    { key := "clock_hz", required := false
      read := fun c => do return { c with clockHz := ← Reader.word32 } },
    { key := "cycles_per_instruction", required := false
      read := fun c => do return { c with cyclesPerInstruction := ← Reader.word32 } },
    { key := "burst_cycles", required := false
      read := fun c => do return { c with burstCycles := ← Reader.signed64 } },
    { key := "load_address", required := false
      read := fun c => do return { c with loadAddress := ← Reader.byte } }]
  initial := {}
  lenient := true

/-- Reads settings from a JSON text. -/
def parse (text : String) : Except ConfigError Config :=
  match Json.parse (Reader.record form) text with
  | .ok config => .ok config
  | .error error => .error (.content error)

/-- The text of a settings file. -/
def render (config : Config) : String :=
  config.toJson.pretty

/-! ## Files -/

/-- Reads a settings file. -/
def load (files : Files) (path : String) : Except ConfigError Config :=
  match files.text path with
  | .ok text => parse text
  | .error fault => .error (.file fault)

/-- Reads a settings file if one is named; the defaults otherwise. -/
def loadOrDefault (files : Files) : Option String → Except ConfigError Config
  | some path => load files path
  | none => .ok {}

/-- Writes a settings file. -/
def save (config : Config) (store : FileStore) (path : String) : Except ConfigError FileStore :=
  match store.writeText path config.render with
  | .ok after => .ok after
  | .error fault => .error (.file fault)

end Config

end Kenbak1
