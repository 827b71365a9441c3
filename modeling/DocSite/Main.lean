import DocSite.Command.Run
import Std.Time.DateTime.Timestamp

/-!
# The program

The machine that the program runs on, as the host of a command line.
-/

namespace DocSite

/-- Why the machine refuses, from what it reports. -/
def FileError.ofReport : IO.Error → FileError
  | .alreadyExists _ number text => .refused text.toList number.toNat
  | .otherError number text => .refused text.toList number.toNat
  | .resourceBusy number text => .refused text.toList number.toNat
  | .resourceVanished number text => .refused text.toList number.toNat
  | .unsupportedOperation number text => .refused text.toList number.toNat
  | .hardwareFault number text => .refused text.toList number.toNat
  | .unsatisfiedConstraints number text => .refused text.toList number.toNat
  | .illegalOperation number text => .refused text.toList number.toNat
  | .protocolError number text => .refused text.toList number.toNat
  | .timeExpired number text => .refused text.toList number.toNat
  | .interrupted _ number text => .refused text.toList number.toNat
  | .noFileOrDirectory _ number text => .refused text.toList number.toNat
  | .invalidArgument _ number text => .refused text.toList number.toNat
  | .permissionDenied _ number text => .refused text.toList number.toNat
  | .resourceExhausted _ number text => .refused text.toList number.toNat
  | .inappropriateType _ number text => .refused text.toList number.toNat
  | .noSuchThing _ number text => .refused text.toList number.toNat
  | .unexpectedEof => .refused "end of file".toList 0
  | .userError text => .refused text.toList 0

/-- What a file operation answers. -/
def answered {α : Type} (operation : IO α) : IO (Except FileError α) := do
  match ← operation.toBaseIO with
  | .ok a => return .ok a
  | .error report => return .error (.ofReport report)

/-- The bytes of the file at a path. -/
def readBytes (path : String) : IO ByteArray := do
  (← IO.FS.Handle.mk path .read).readBinToEnd

/-- The variables in the bytes that list them, each ended by a zero. Those that are no text are left
out. -/
def Environment.ofBytes (bytes : ByteArray) : Environment :=
  (bytes.data.toList.splitOn 0).filterMap fun row =>
    (String.fromUTF8? ⟨row.toArray⟩).map String.toList

/-- The machine that the program runs on. -/
def machineHost : IO (Host IO) := do
  let directory ← IO.currentDir
  let environment := Environment.ofBytes (← readBytes "/proc/self/environ")
  return {
    workingDirectory := directory.toString.toList
    valueOf? := environment.valueOf?
    pathExists := fun p =>
      if p = [] then return false else (directory / String.ofList p).pathExists
    readText := fun p => do
      match ← answered (readBytes (String.ofList p)) with
      | .error e => return .error e
      | .ok bytes =>
        match String.fromUTF8? bytes with
        | some s => return .ok s.toList
        | none => return .error .notText
    isDirectory := fun p =>
      if p = [] then return false else (directory / String.ofList p).isDir
    makeDirectory := fun p => answered (IO.FS.createDir (String.ofList p))
    writeText := fun p s => answered (IO.FS.writeFile (String.ofList p) (String.ofList s))
    print := fun s => IO.print (String.ofList s)
    tell := fun s => IO.eprint (String.ofList s)
    now := do
      let t ← Std.Time.Timestamp.now
      return ⟨t.val.second.val, t.val.nano.val.toNat⟩ }

end DocSite

/-- Runs a command line. -/
def main (args : List String) : IO UInt32 := do
  let code ← DocSite.Command.start (← DocSite.machineHost) (args.map String.toList)
  return code.toUInt32
