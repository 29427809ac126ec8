import SolverPortfolio.Rehearsal.Host

/-
# Lines of a stream

A stream of bytes is cut into lines at line feeds, where one carriage return
before the line feed is dropped. A line that is no text ends the stream.

Main definitions: `LineReader`, `LineReader.feed`, `LineReader.close`, `Tap`,
`Tap.drain`.
-/

namespace SolverPortfolio

/-! ## Reading lines -/

/-- What was read of a stream. -/
structure LineReader where
  /-- The bytes of the line begun, the last one first. -/
  begun : Octets
  /-- Was there a line that is no text? -/
  broken : Bool
  deriving Repr, DecidableEq

/-- A line, or why it is no text. -/
abbrev ReadLine := Except Text.Utf8Fault String

namespace LineReader

/-- A reader that has read nothing. -/
def start : LineReader := ⟨[], false⟩

/-- The text that bytes make up. -/
def textOf (s : Octets) : ReadLine := Text.readUtf8 (Octets.toBytes s).toList

/-- The line that bytes make up, the last one first, without the line feed. -/
def lineOf (reversed : Octets) : ReadLine :=
  match reversed with
  | '\r' :: rest => textOf rest.reverse
  | rest => textOf rest.reverse

/-- Reads bytes. Nothing is read after a line that is no text. -/
def feed (r : LineReader) : Octets → LineReader × List ReadLine
  | [] => (r, [])
  | c :: rest =>
    if r.broken then (r, [])
    else if c = '\n' then
      match lineOf r.begun with
      | .error e => (⟨[], true⟩, [.error e])
      | .ok line =>
        let (r, more) := feed ⟨[], false⟩ rest
        (r, .ok line :: more)
    else feed ⟨c :: r.begun, false⟩ rest

/-- The line left at the end of the stream. -/
def close (r : LineReader) : List ReadLine :=
  if r.broken || r.begun.isEmpty then [] else [textOf r.begun.reverse]

end LineReader

/-! ## Reading from pipes -/

/-- A pipe of which the lines are read, as long as it is open. -/
structure Tap where
  pipe : PipeId
  reader : LineReader
  isOpen : Bool

namespace Tap

/-- A tap of a new pipe. -/
def start (pipe : PipeId) : Tap := ⟨pipe, .start, true⟩

/-- Is there something to be read, or the end? -/
def isReady (tap : Tap) (h : Host) : Bool :=
  tap.isOpen && (h.hasContent tap.pipe || h.isClosed tap.pipe)

/-- Reads what is there. A tap is closed at the end of the pipe, and at a line that is no text. -/
def drain (tap : Tap) (h : Host) : Host × Tap × List ReadLine :=
  if !tap.isOpen then (h, tap, [])
  else
    let (h, content) := h.takeContent tap.pipe
    let (reader, lines) := tap.reader.feed content
    if reader.broken then (h.release tap.pipe, ⟨tap.pipe, reader, false⟩, lines)
    else if h.isClosed tap.pipe then
      (h.release tap.pipe, ⟨tap.pipe, .start, false⟩, lines ++ reader.close)
    else (h, ⟨tap.pipe, reader, true⟩, lines)

/-- The line left when nothing is read any more. -/
def rest (tap : Tap) : List ReadLine := if tap.isOpen then tap.reader.close else []

end Tap

/-! ## Copying from pipe to pipe -/

/-- A pipe of which all that is read is written to another one, as long as it goes on. -/
structure Copying where
  source : PipeId
  target : PipeId
  goesOn : Bool

namespace Copying

/-- Is there something to be copied, or the end? -/
def isReady (c : Copying) (h : Host) : Bool :=
  c.goesOn && (h.hasContent c.source || h.isClosed c.source)

/-- Lets go of both pipes. -/
def stop (c : Copying) (h : Host) : Host × Copying :=
  ((h.release c.source).release c.target, { c with goesOn := false })

/-- Copies what is there. The copying ends at the end of the source, and when there is something to
be copied but nobody to read it. -/
def advance (c : Copying) (h : Host) : Host × Copying :=
  if !c.goesOn then (h, c)
  else
    let (h, content) := h.takeContent c.source
    if !content.isEmpty && !h.hasReader c.target then c.stop h
    else
      let h := h.giveContent c.target content
      if h.isClosed c.source then c.stop h else (h, c)

end Copying

end SolverPortfolio
