import ScriptGrammar.Command

/-!
# The program
-/

namespace ScriptGrammar

def usage : String :=
  "usage: (parse|tokens|check) [--jsx] [--loose-parens] [--loose-semicolons] [--bare-try] " ++
    "[--json] [-v|--verbose] FILE..."

/-- A fault by the number the system gives it. -/
def faultOfCode? (code : UInt32) : Option Fault :=
  match code.toNat with
  | 2 => some .missing
  | 13 => some .denied
  | 20 => some .notFolder
  | 21 => some .isFolder
  | _ => none

def faultOf (e : IO.Error) : Fault :=
  let code? : Option UInt32 := match e with
    | .noFileOrDirectory _ code _ | .permissionDenied _ code _ | .inappropriateType _ code _ =>
      some code
    | _ => none
  (code?.bind faultOfCode?).getD (.other (toString e))

def loadFile (file : String) : IO (String × Except LoadError String) := do
  try
    return (file, decodeText (← IO.FS.readBinFile file))
  catch e => return (file, .error (.unreadable (faultOf e)))

end ScriptGrammar

open ScriptGrammar in
def main (args : List String) : IO UInt32 := do
  match Invocation.ofArgs? args with
  | none =>
    IO.eprintln usage
    return 2
  | some inv =>
    let outcome := inv.answer (← inv.files.mapM loadFile)
    IO.print outcome.output
    outcome.notes.forM fun note => IO.eprintln note.line
    return outcome.exit.toUInt32
