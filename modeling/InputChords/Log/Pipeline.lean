import InputChords.Log.Line
import InputChords.Settings

/-! Where log records go: to the console alone, or through a queue to the console and a file. -/

namespace InputChords.Log

inductive Format where
  | plain | json
  deriving DecidableEq, Repr

/-- Every name but one stands for the plain format. -/
def Format.ofName (name : String) : Format :=
  if Text.lower (Text.strip name) = "json" then .json else .plain

def Format.render (stamp : Stamp) (r : Record) : Format → String
  | plain => plainText stamp r
  | json => (Line.ofRecord r).render stamp

/-- What a level name stands for: two names stand for texts and tables that are no levels. -/
inductive LevelName where
  | level (l : Level)
  | template
  | styles
  | unknown
  deriving DecidableEq, Repr

def LevelName.of (name : String) : LevelName :=
  let word := Text.upper name
  if word = "WARN" then .level .warning
  else if word = "FATAL" then .level .critical
  else if word = "BASIC_FORMAT" then .template
  else if word = "_STYLES" then .styles
  else match Level.named.get? word with
    | some l => .level l
    | none => .unknown

inductive PipelineFault where
  | unknownLevel
  | notALevel
  | denied (reason : String)
  | reserved (name : String)
  deriving DecidableEq, Repr

namespace PipelineFault

def message : PipelineFault → String
  | unknownLevel => "Unknown level: '%(levelname)s:%(name)s:%(message)s'"
  | notALevel =>
    "Level not an integer or a valid string: \x7b'%': (<class 'logging.PercentStyle'>, "
    ++ "'%(levelname)s:%(name)s:%(message)s'), '\x7b': (<class 'logging.StrFormatStyle'>, "
    ++ "'\x7blevelname\x7d:\x7bname\x7d:\x7bmessage\x7d'), "
    ++ "'$': (<class 'logging.StringTemplateStyle'>, "
    ++ "'$\x7blevelname\x7d:$\x7bname\x7d:$\x7bmessage\x7d')\x7d"
  | denied reason => reason
  | reserved name => Text.quote ("Attempt to overwrite " ++ Text.quote name ++ " in LogRecord")

end PipelineFault

structure Config where
  level : String
  console : String
  file : Option String
  fileFormat : String
  deriving DecidableEq, Repr

structure Disk where
  denial : Option String
  opens : Bool
  deriving DecidableEq, Repr

def Disk.ready : Disk := ⟨none, true⟩

inductive Handler where
  | console (format : Format)
  | queue
  deriving DecidableEq, Repr

structure Listener where
  console : Format
  file : String
  fileFormat : Format
  opens : Bool
  deriving DecidableEq, Repr

namespace Config

def path (c : Config) : Option String := c.file.filter fun file => !file.isEmpty

def handler (c : Config) : Handler :=
  if c.path.isSome then .queue else .console (.ofName c.console)

def listener (c : Config) (disk : Disk) : Option Listener :=
  c.path.map fun file => ⟨.ofName c.console, file, .ofName c.fileFormat, disk.opens⟩

def minimal (level : String) : Config := ⟨level, "text", none, "json"⟩

end Config

/-- `console` and `files` hold the lines written so far. -/
structure Pipeline where
  level : Level
  handler : Option Handler
  listener : Option Listener
  console : List String
  files : Named String (List String)

/-- A text cut at its line ends. A further line end is written behind each text. -/
def linesOf (text : String) : List String := (text.toList.splitOn '\n').map String.ofList

/-- Extras under these names stand before what a handler calls to prepare a record. -/
def trippingNames : Option Handler → List String
  | some .queue => [Draft.messageMethod, "__getstate__", "__reduce_ex__"]
  | _ => [Draft.messageMethod]

def Record.isLost (r : Record) (handler : Option Handler) : Bool :=
  r.extras.any fun extra => (trippingNames handler).contains extra.1

/-- A plain line leaves its time stamp on the record, where later lines find it. -/
def Record.stamped (r : Record) (stamp : Stamp) : Format → Record
  | .plain => { r with extras := Named.put "asctime" (.text stamp.plain) r.extras }
  | .json => r

namespace Pipeline

def start : Pipeline := ⟨.warning, none, none, [], []⟩

def writeConsole (p : Pipeline) (text : String) : Pipeline :=
  { p with console := p.console ++ linesOf text }

def writeFile (p : Pipeline) (file text : String) : Pipeline :=
  { p with files := p.files.put file ((p.files.get? file).getD [] ++ linesOf text) }

def shutdown (p : Pipeline) : Pipeline := { p with listener := none }

def install (p : Pipeline) (c : Config) (disk : Disk) (level : Level) : Pipeline :=
  { p with level := level, handler := some c.handler, listener := c.listener disk }

def bare (p : Pipeline) : Pipeline := { p with handler := none, listener := none }

/-- The listener is stopped before the folder of the file is made, and the handlers are gone before
the level is set. A name that is unknown stands for the level of information. -/
def configure (p : Pipeline) (c : Config) (disk : Disk) : Pipeline × Option PipelineFault :=
  match c.path.bind fun _ => disk.denial with
  | some reason => (p.shutdown, some (.denied reason))
  | none =>
    match LevelName.of c.level with
    | .level level => (p.install c disk level, none)
    | .unknown => (p.install c disk .info, none)
    | .template => (p.bare, some .unknownLevel)
    | .styles => (p.bare, some .notALevel)

def setup (p : Pipeline) (level : String) : Pipeline × Option PipelineFault :=
  if p.handler.isSome then (p, none) else p.configure (.minimal level) .ready

/-- Levels that are not above zero are always kept out. -/
def enabled (p : Pipeline) (level : Level) : Bool :=
  decide (0 < level.rank ∧ p.level.rank ≤ level.rank)

def isReserved (name : String) : Bool :=
  name = "message" || name = "asctime" || ownNames.contains name

/-- The console comes first. A file that cannot be opened ends the listener. -/
def take (p : Pipeline) (l : Listener) (stamp : Stamp) (r : Record) : Pipeline :=
  let shown := p.writeConsole (l.console.render stamp r)
  if l.opens then shown.writeFile l.file (l.fileFormat.render stamp (r.stamped stamp l.console))
  else shown.shutdown

/-- Without a listener a record is never taken off the queue. -/
def hear (p : Pipeline) (stamp : Stamp) (r : Record) : Pipeline :=
  match p.listener with
  | none => p
  | some l => p.take l stamp r

/-- Without a handler only warnings and worse are written, and nothing but their text. -/
def emit (p : Pipeline) (stamp : Stamp) (r : Record) : Pipeline :=
  match p.handler with
  | none => if Level.warning.rank ≤ r.level.rank then p.writeConsole r.text else p
  | some (.console format) => p.writeConsole (format.render stamp r)
  | some .queue => p.hear stamp r.queued

def log (p : Pipeline) (stamp : Stamp) (r : Record) : Pipeline × Option PipelineFault :=
  if p.enabled r.level then
    match r.extras.find? fun extra => isReserved extra.1 with
    | some (name, _) => (p, some (.reserved name))
    | none => (if r.isLost p.handler then p else p.emit stamp r, none)
  else (p, none)

def logAll (p : Pipeline) (stamp : Stamp) (records : List Record) : Pipeline :=
  records.foldl (fun p r => (p.log stamp r).1) p

end Pipeline

end InputChords.Log
