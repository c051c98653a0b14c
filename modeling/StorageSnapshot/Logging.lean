-- SUMMARY: Where the records of a run go: the console, a debug log, a report of what was given up.
import StorageSnapshot.Json.Printer
import StorageSnapshot.Text.Blank
import StorageSnapshot.Trace

/-!
# Logging

A run installs its sinks at the root of all topics and removes them when it is over. Each sink picks
the records it takes and has its own way of writing them.
-/

namespace StorageSnapshot.Logging

/-! ## Settings -/

structure Settings where
  quiet : Bool := false
  debug : Bool := false
  /-- If any are given, debugging shows the records of these topics only. -/
  debugTopics : List String := []
  showTopics : Bool := false
  debugLog : Bool := false
  abortReport : Bool := false
  /-- Whether the console shows colours. -/
  colours : Bool := false

namespace Settings

def isDebugging (s : Settings) : Bool := s.debug && not s.quiet

/-- The least level that the console shows. -/
def floor (s : Settings) : Level :=
  if s.quiet then .warning else if s.debug then .debug else .info

end Settings

/-! ## Sinks -/

inductive Sink where
  | console
  | debugLog
  | abortReport
  /-- A sink that is no part of the run. -/
  | outside
  deriving DecidableEq

/-- The sinks of a run. -/
def sinks (s : Settings) : List Sink :=
  .console :: ((if s.debugLog then [Sink.debugLog] else []) ++
    (if s.abortReport then [Sink.abortReport] else []))

/-- Whether a record is of one of these topics, or matters whatever its topic. -/
def ofTopics (topics : List String) (r : Record) : Bool :=
  r.level.atLeast .warning || (topics.map Text.trimmed).contains r.topic

/-- Whether a sink takes a record. -/
def takes (s : Settings) : Sink → Record → Bool
  | .console, r =>
    r.level.atLeast s.floor &&
      (not (s.isDebugging && not s.debugTopics.isEmpty) || ofTopics s.debugTopics r)
  | .debugLog, r => ofTopics Topic.all r
  | .abortReport, r => Topic.aborts.contains r.topic && r.level == .warning
  | .outside, r => r.level.atLeast .warning

/-- The place where all records pass: those below its floor go nowhere. -/
structure Root where
  floor : Option Level := some .warning
  sinks : List Sink := [.outside]

namespace Root

/-- Installs the sinks of a run, for which every record passes. -/
def install (root : Root) (s : Settings) : Root where
  floor := none
  sinks := root.sinks ++ Logging.sinks s

/-- Removes the sinks of a run and gives the root the floor that it had before. -/
def remove (root : Root) (s : Settings) (floor : Option Level) : Root where
  floor := floor
  sinks := (Logging.sinks s).foldl List.erase root.sinks

/-- The records that reach a sink. -/
def received (root : Root) (s : Settings) (sink : Sink) (records : List Record) : List Record :=
  if root.sinks.contains sink then
    records.filter fun r =>
      (match root.floor with
        | none => true
        | some floor => r.level.atLeast floor) && takes s sink r
  else []

end Root

/-! ## Lines -/

/-- A text in a colour of the terminal. -/
def coloured (code : Nat) (s : String) : String :=
  "\x1b[" ++ Text.decimal code ++ "m" ++ s ++ "\x1b[0m"

def orange (s : String) : String := coloured 33 s

def red (s : String) : String := coloured 31 s

/-- The name of a level, warnings in orange and errors in red. -/
def colouredName (level : Level) : String :=
  if level.atLeast .error then red level.name
  else if level = .warning then orange level.name
  else level.name

def consoleLine (s : Settings) (r : Record) : String :=
  (if s.colours then colouredName r.level else r.level.name) ++ ": " ++
    (if s.showTopics then r.topic ++ " - " else "") ++ r.message ++ "\n"

def debugLogLine (r : Record) : String :=
  r.level.name ++ " " ++ r.topic ++ " - " ++ r.message ++ "\n"

/-! ## Texts -/

/-- What the console shows of records. -/
def consoleText (s : Settings) (root : Root) (records : List Record) : String :=
  String.join ((root.received s .console records).map (consoleLine s))

/-- What the debug log holds of records. A record that has no bytes is left out. -/
def debugLogText (s : Settings) (root : Root) (records : List Record) : String :=
  String.join (((root.received s .debugLog records).map debugLogLine).filter fun line =>
    not ((Text.codePoints line.toList).any Text.isLoneUnit))

/-- What was given up: topic and first line of each warning on the topics of decoding. -/
def aborts (s : Settings) (root : Root) (records : List Record) : List (String × String) :=
  (root.received s .abortReport records).map fun r => (r.topic, Text.firstLine r.message)

def abortReportText (s : Settings) (root : Root) (records : List Record) : String :=
  Json.indented (.object [("aborts", .list ((aborts s root records).map fun a =>
    .object [("topic", .text a.1), ("message", .text a.2)]))])

end StorageSnapshot.Logging
