import CdcPipeline.Library.Json

namespace CdcPipeline.Model

open Library Text

/-- The `spdlog` function that is called. -/
inductive Level where
  | info | warn | error | critical
deriving DecidableEq

/-- `%l` -/
def Level.name : Level → Bytes
  | .info => bytes "info"
  | .warn => bytes "warning"
  | .error => bytes "error"
  | .critical => bytes "critical"

/-- A part of a quoted value in a format string: its own text, or a `{}` with what is
formatted into it. -/
inductive Piece where
  | lit (s : Bytes)
  | arg (s : Bytes)
  | num (n : Int)

namespace Piece

def format : Piece → Bytes
  | .lit s => s
  | .arg _ | .num _ => bytes "\x7b\x7d"

def args : Piece → List Bytes
  | .lit _ => []
  | .arg s => [s]
  | .num n => [intText n]

/-- The string arguments alone. -/
def strings : Piece → List Bytes
  | .arg s => [s]
  | .lit _ | .num _ => []

def text : Piece → Bytes
  | .lit s | .arg s => s
  | .num n => intText n

end Piece

/-- A member of the object that a format string spells out. -/
inductive Field where
  | text (name : Bytes) (pieces : List Piece)
  | number (name : Bytes) (n : Int)

namespace Field

def name : Field → Bytes
  | .text name _ | .number name _ => name

def format : Field → Bytes
  | .text name pieces => [0x22] ++ name ++ bytes "\": \"" ++ pieces.flatMap Piece.format ++ [0x22]
  | .number name _ => [0x22] ++ name ++ bytes "\": \x7b\x7d"

def args : Field → List Bytes
  | .text _ pieces => pieces.flatMap Piece.args
  | .number _ n => [intText n]

def strings : Field → List Bytes
  | .text _ pieces => pieces.flatMap Piece.strings
  | .number _ _ => []

/-- The member that the call means. -/
def value : Field → Bytes × Json
  | .text name pieces => (name, .str (pieces.flatMap Piece.text))
  | .number name n => (name, .int n)

end Field

/-- One call of a logging function. -/
structure LogLine where
  level : Level
  event : Bytes
  fields : List Field

namespace LogLine

/-- The format string as it stands in the source. -/
def format (l : LogLine) : Bytes :=
  bytes "\x7b\x7b\"event\": \"" ++ l.event ++ [0x22] ++
    l.fields.flatMap (fun f => bytes ", " ++ f.format) ++ bytes "\x7d\x7d"

/-- What follows the format string in the call, as it is printed. -/
def args (l : LogLine) : List Bytes := l.fields.flatMap Field.args

def strings (l : LogLine) : List Bytes := l.fields.flatMap Field.strings

/-- The event name and the field values of the call. -/
def values (l : LogLine) : List (Bytes × Json) :=
  (bytes "event", .str l.event) :: l.fields.map Field.value

theorem values_names (l : LogLine) :
    l.values.map Prod.fst = bytes "event" :: l.fields.map Field.name := by
  rw [values, List.map_cons, List.map_map]
  exact congrArg _ (List.map_congr_left fun f _ => by cases f <;> rfl)

end LogLine

/-- `fmt::format`, where every replacement field is a plain `{}`. -/
def fmtFormat : Bytes → List Bytes → Option Bytes
  | [], _ => some []
  | 0x7B :: 0x7B :: fmt, args => (fmtFormat fmt args).map (0x7B :: ·)
  | 0x7D :: 0x7D :: fmt, args => (fmtFormat fmt args).map (0x7D :: ·)
  | 0x7B :: 0x7D :: fmt, a :: args => (fmtFormat fmt args).map (a ++ ·)
  | b :: fmt, args =>
    if b = 0x7B ∨ b = 0x7D then none else (fmtFormat fmt args).map (b :: ·)

/-- `%v`: a call with arguments formats them, one without logs its string as it is. -/
def LogLine.payload (l : LogLine) : Option Bytes :=
  if l.args = [] then some l.format else fmtFormat l.format l.args

def isMomentByte (b : UInt8) : Bool := isDigit b || (bytes "-T:.+").contains b

/-- A point in time, printed as `%Y-%m-%dT%H:%M:%S.%f%z`. -/
structure Moment where
  text : Bytes
  chars : text.all isMomentByte = true

/-- The name a process gives to `Logger::Init`, which `%n` prints. -/
inductive Service where
  | orderApi | cdcConsumers
deriving DecidableEq

def Service.name : Service → Bytes
  | .orderApi => bytes "order-api"
  | .cdcConsumers => bytes "cdc-consumers"

/-- `json_pattern`, the text of a message for the TCP sink without the formatter's own line end. -/
def pattern (at_ : Moment) (level : Level) (service : Service) (v : Bytes) : Bytes :=
  bytes "\x7b\"@timestamp\":\"" ++ at_.text ++ bytes "\", \"level\":\"" ++ level.name ++
    bytes "\", \"service\":\"" ++ service.name ++ bytes "\", \"message\":" ++ v ++ bytes "\x7d\n"

/-- The members that the pattern puts around the message. -/
def header (at_ : Moment) (level : Level) (service : Service) : List (Bytes × Json) :=
  [(bytes "@timestamp", .str at_.text), (bytes "level", .str level.name),
    (bytes "service", .str service.name)]

end CdcPipeline.Model
