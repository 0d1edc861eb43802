import SourceDiagram.CommandLine.Run

set_option autoImplicit false

namespace SourceDiagram

open SourceDiagram.CommandLine

def faultOf (fault : IO.Error) : FileFault :=
  match fault with
  | .noFileOrDirectory _ _ _ => .missing
  | .permissionDenied _ _ _ => .denied
  | .inappropriateType _ code _ => if code = 20 then .notDirectory else .isDirectory
  | fault => .other (toString fault)

def systemHost (theme : Theme) : Host IO where
  isPresent path := (System.mkFilePath [path]).pathExists
  read path := do
    try
      return .ok (← IO.FS.readBinFile path)
    catch fault => return .error (faultOf fault)
  write path content := do
    try
      return .ok (← IO.FS.writeBinFile path content)
    catch fault => return .error (faultOf fault)
  environment? name := IO.getEnv name
  out text := do
    let stream ← IO.getStdout
    stream.putStr text
    stream.flush
  err line := IO.eprintln line
  theme := theme

end SourceDiagram

open SourceDiagram in
def main (words : List String) : IO UInt32 := do
  let stderr ← IO.getStderr
  let theme := if ← stderr.isTty then Theme.colored else Theme.plain
  return (← CommandLine.run (systemHost theme) words).toUInt32
