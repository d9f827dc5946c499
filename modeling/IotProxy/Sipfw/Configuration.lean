import IotProxy.Lib.Encoding

/-!
# Loading the configuration of the packet filter

`SIPFW_HandleConf` reads `/etc/sipfw.conf` line by line into a buffer on its stack, until
`SIPFW_ReadLine` returns a negative number. At the end of the file that returns 0, as for an empty
line.

A buffer is the list of its bytes and a pointer into it is an index. Only where `char` is signed,
the byte 255 is taken for the end of the file.
-/

namespace IotProxy.Sipfw

/-- A regular file that was opened, with the position at which it is read. -/
structure OpenFile where
  content : Bytes
  pos : ℕ := 0
  readable : Bool := true

inductive ConfAction where
  | drop
  | accept
  deriving DecidableEq

structure SipfwConf where
  defaultAction : ConfAction := .accept
  ruleFilePath : Bytes := Text.toBytes "/etc/sipfw.rules".toList
  logFilePath : Bytes := Text.toBytes "/etc/sipfw.log".toList
  deriving DecidableEq

section ReadLine

/-- `SIPFW_KernelRead` of one byte, with `none` at the end of the file. -/
def OpenFile.kernelRead (file : OpenFile) : Option (UInt8 × OpenFile) :=
  file.content[file.pos]?.map fun byte => (byte, { file with pos := file.pos + 1 })

def isEof (charSigned : Bool) (byte : UInt8) : Bool :=
  charSigned && byte == 255

structure LineReader where
  file : OpenFile
  buffer : Bytes
  pos : ℕ := 0
  count : ℕ := 1

def LineReader.current (reader : LineReader) : UInt8 :=
  reader.buffer.getD reader.pos 0

def goesOn (charSigned : Bool) (byte : UInt8) : Bool :=
  !isEof charSigned byte && byte != 0 && byte != 10 && byte != 13

/-- The loop of `SIPFW_ReadLine`, where `room` is `len - 1 - count`. -/
def readOn (charSigned : Bool) : ℕ → LineReader → LineReader
  | 0, reader => reader
  | room + 1, reader =>
    if goesOn charSigned reader.current && reader.file.pos ≤ reader.file.content.length then
      match reader.file.kernelRead with
      -- the pointer has moved on to a byte that was in the buffer before
      | none => { reader with pos := reader.pos + 1 }
      | some (byte, file) =>
        readOn charSigned room
          { file
            buffer := reader.buffer.set (reader.pos + 1) byte
            pos := reader.pos + 1
            count := reader.count + 1 }
    else reader

/-- The end of `SIPFW_ReadLine`. -/
def terminate (charSigned : Bool) (reader : LineReader) : ℤ × OpenFile × Bytes :=
  if reader.current = 13 ∨ reader.current = 10 ∨ isEof charSigned reader.current then
    ((reader.count - 1 : ℕ), reader.file, reader.buffer.set reader.pos 0)
  else (reader.count, reader.file, reader.buffer.set (reader.pos + 1) 0)

/-- `SIPFW_ReadLine`: the result, and the file and the buffer afterwards. -/
def readLine (charSigned : Bool) (file : OpenFile) (buffer : Bytes) (len : ℕ) :
    ℤ × OpenFile × Bytes :=
  if len ≤ 1 ∨ !file.readable then (-1, file, buffer)
  else
    match file.kernelRead with
    | none => (0, file, buffer)
    | some (byte, file) =>
      let buffer := buffer.set 0 byte
      if isEof charSigned byte then (0, file, buffer)
      else terminate charSigned (readOn charSigned (len - 2) { file, buffer })

end ReadLine

section HandleConf

/-- `isspace` of the kernel, which takes the byte 160 for a space. -/
def isSpace (byte : UInt8) : Bool :=
  byte ∈ [9, 10, 11, 12, 13, 32, 160]

def cString (buffer : Bytes) : Bytes :=
  buffer.takeWhile (· ≠ 0)

/-- The buffer after `strim`, whose result is not used. -/
def strim (buffer : Bytes) : Bytes :=
  if cString buffer = [] then buffer
  else buffer.set ((cString buffer).rdropWhile isSpace).length 0

def valueAfter (key text : Bytes) : Bytes :=
  (text.drop key.length).dropWhile fun byte => byte = 61 || isSpace byte

/-- `strscpy` into a field of 256 bytes. -/
def strscpy (text : Bytes) : Bytes :=
  text.take 255

def startsWith (text key : Bytes) : Bool :=
  key.isPrefixOf text

/-- What the loop of `SIPFW_HandleConf` does with a line. -/
def SipfwConf.handleLine (conf : SipfwConf) (line : Bytes) : SipfwConf :=
  if line = [] ∨ line.head? = some 35 then conf
  else
    let text := line.dropWhile isSpace
    let defaultAction := Text.toBytes "DefaultAction".toList
    let rulesFile := Text.toBytes "RulesFile".toList
    let logFile := Text.toBytes "LogFile".toList
    if startsWith text defaultAction then
      let value := valueAfter defaultAction text
      if startsWith value (Text.toBytes "ACCEPT".toList) then
        { conf with defaultAction := .accept }
      else if startsWith value (Text.toBytes "DROP".toList) then
        { conf with defaultAction := .drop }
      else conf
    else if startsWith text rulesFile then
      { conf with ruleFilePath := strscpy (valueAfter rulesFile text) }
    else if startsWith text logFile then
      { conf with logFilePath := strscpy (valueAfter logFile text) }
    else conf

/-- The variables of `SIPFW_HandleConf`, and the lines that it has handled. -/
structure ConfLoop where
  file : OpenFile
  line : Bytes
  conf : SipfwConf
  handled : List Bytes := []

def ConfLoop.iteration (charSigned : Bool) (state : ConfLoop) : Option ConfLoop :=
  let (count, file, line) := readLine charSigned state.file state.line 256
  if 0 ≤ count then
    some
      { file
        line := strim line
        conf := state.conf.handleLine (cString (strim line))
        handled := state.handled ++ [cString line] }
  else none

/-- The loop, for at most `fuel` iterations, with `none` if that is not enough. -/
def ConfLoop.run (charSigned : Bool) : ℕ → ConfLoop → Option ConfLoop
  | 0, _ => none
  | fuel + 1, state =>
    match state.iteration charSigned with
    | none => some state
    | some next => next.run charSigned fuel

/-- `SIPFW_HandleConf` for the content of the file, which is `none` if it cannot be opened: the
configuration afterwards, and the lines that were handled. -/
def handleConf (charSigned : Bool) (fuel : ℕ) (line : Bytes) (conf : SipfwConf) :
    Option Bytes → Option (SipfwConf × List Bytes)
  | none => some (conf, [])
  | some content =>
    (ConfLoop.run charSigned fuel { file := { content }, line, conf }).map fun state =>
      (state.conf, state.handled)

/-- The lines of a file; the last one need not end with a newline. -/
def fileLines (content : Bytes) : List Bytes :=
  let parts := content.splitOn 10
  if parts.getLast? = some [] then parts.dropLast else parts

example : fileLines [97, 10, 10, 98] = [[97], [], [98]] := by decide

end HandleConf

section NeverEnds

variable {charSigned : Bool}

theorem readable_kernelRead {file after : OpenFile} {byte : UInt8}
    (read : file.kernelRead = some (byte, after)) : after.readable = file.readable := by
  obtain ⟨_, _, isRead⟩ := Option.map_eq_some_iff.mp read
  rw [← (Prod.mk.inj isRead).2]

theorem readable_readOn (room : ℕ) (reader : LineReader) :
    (readOn charSigned room reader).file.readable = reader.file.readable := by
  induction room generalizing reader with
  | zero => rfl
  | succ room ih =>
    rw [readOn]
    split_ifs
    · cases read : reader.file.kernelRead with
      | none => rfl
      | some result =>
        rw [← readable_kernelRead read]
        exact ih _
    · rfl

theorem readLine_spec {file : OpenFile} {len : ℕ} (buffer : Bytes) (readable : file.readable = true)
    (enough : 2 ≤ len) : 0 ≤ (readLine charSigned file buffer len).1 ∧
      (readLine charSigned file buffer len).2.1.readable = true := by
  have valid : ¬(len ≤ 1 ∨ (!file.readable) = true) := by
    rw [readable]
    simp
    omega
  rw [readLine, if_neg valid]
  cases read : file.kernelRead with
  | none => exact ⟨le_rfl, readable⟩
  | some result =>
    have stillReadable := (readable_kernelRead read).trans readable
    simp only
    split_ifs
    · exact ⟨le_rfl, stillReadable⟩
    · have readOnReadable := (@readable_readOn charSigned (len - 2)
        { file := result.2, buffer := buffer.set 0 result.1 }).trans stillReadable
      unfold terminate
      split_ifs
      · exact ⟨Int.natCast_nonneg _, readOnReadable⟩
      · exact ⟨Int.natCast_nonneg _, readOnReadable⟩

theorem ConfLoop.run_eq_none (fuel : ℕ) {state : ConfLoop}
    (readable : state.file.readable = true) : state.run charSigned fuel = none := by
  induction fuel generalizing state with
  | zero => rfl
  | succ fuel ih =>
    obtain ⟨nonneg, stillReadable⟩ :=
      @readLine_spec charSigned _ 256 state.line readable (by decide)
    rw [ConfLoop.run, ConfLoop.iteration]
    simp only [if_pos nonneg]
    exact ih stillReadable

/-- The loop ends for no file, so that the function returns only if there is none, and then it has
changed nothing. -/
theorem handleConf_returns {fuel : ℕ} {line : Bytes} {conf after : SipfwConf}
    {content : Option Bytes} {handled : List Bytes}
    (returns : handleConf charSigned fuel line conf content = some (after, handled)) :
    after = conf := by
  cases content with
  | none =>
    cases returns
    rfl
  | some content =>
    rw [handleConf, ConfLoop.run_eq_none fuel rfl] at returns
    cases returns

/-- The function returns, after it has handled every line of the file once, if and only if there is
no file that it could open. -/
theorem handleConf_ends_iff (line : Bytes) (conf : SipfwConf) (content : Option Bytes) :
    (∃ fuel result, handleConf charSigned fuel line conf content = some result ∧
      result.2 = content.elim [] fileLines) ↔ content = none := by
  constructor
  · rintro ⟨fuel, result, returns, -⟩
    cases content with
    | none => rfl
    | some content =>
      rw [handleConf, ConfLoop.run_eq_none fuel rfl] at returns
      cases returns
  · rintro rfl
    exact ⟨0, (conf, []), rfl, rfl⟩

/-- Without a file, nothing is loaded. -/
theorem conf_without_file :
    ∃ fuel result, handleConf true fuel (List.replicate 256 0) {} none = some result ∧
      result.2 = [] :=
  (handleConf_ends_iff (List.replicate 256 0) {} none).mpr rfl

/-- A file of one line, which is handled a second time at the end of the file. -/
theorem conf_never_loaded :
    let content := Text.toBytes "DefaultAction DROP\n".toList
    let start : ConfLoop := { file := { content }, line := List.replicate 256 0, conf := {} }
    ((start.iteration true).bind (·.iteration true)).map (·.handled) =
        some [Text.toBytes "DefaultAction DROP".toList, Text.toBytes "DefaultAction DROP".toList] ∧
      ¬∃ fuel result, handleConf true fuel (List.replicate 256 0) {} (some content) = some result ∧
        result.2 = fileLines content := by
  constructor
  · decide +kernel
  · rintro ⟨fuel, result, returns, -⟩
    rw [handleConf, ConfLoop.run_eq_none fuel rfl] at returns
    cases returns

end NeverEnds

end IotProxy.Sipfw
