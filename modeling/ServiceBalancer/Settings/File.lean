import ServiceBalancer.Settings.Overlay
import ServiceBalancer.Toml.Document

/-! The settings file, and the settings that the command line puts above it. -/
namespace ServiceBalancer.Settings

inductive FileFault where
  | missing
  | notText
  /-- no document, or one in which a setting has a value of the wrong type -/
  | malformed
  | unacceptable (fault : SettingsFault)

def FileFault.toError (path : String) : FileFault → Error
  | missing => .config ("Failed to read " ++ path ++ ": No such file or directory (os error 2)")
  | notText => .config ("Failed to read " ++ path ++ ": stream did not contain valid UTF-8")
  | malformed => .config ("Failed to parse " ++ path ++ ": not a document of settings")
  | unacceptable fault => .config fault.text

def accepted (s : Settings) : Except FileFault Settings :=
  match s.fault? with
  | some fault => .error (.unacceptable fault)
  | none => .ok s

def ofDocument (document : String) : Except FileFault Settings :=
  match (Toml.ofDocument? document).bind ofToml? with
  | some s => s.accepted
  | none => .error .malformed

def ofContent (content : Option ByteArray) : Except FileFault Settings :=
  match content with
  | none => .error .missing
  | some bytes =>
    match String.fromUTF8? bytes with
    | some document => ofDocument document
    | none => .error .notText

structure Overrides where
  workers : Option Nat := none
  clusterName : Option String := none
  resyncSecs : Option Nat := none

def override (s : Settings) (o : Overrides) : Settings :=
  { s with
    workers := o.workers.getD s.workers
    clusterName := o.clusterName.getD s.clusterName
    resyncSecs := o.resyncSecs.getD s.resyncSecs }

/-- The settings of a file, which must be acceptable in itself, or the defaults if no file was
asked for, with those given on their own above them. -/
def combined (file : Option (Option ByteArray)) (o : Overrides) : Except FileFault Settings := do
  let base ← match file with
    | some content => ofContent content
    | none => .ok {}
  (base.override o).accepted

end ServiceBalancer.Settings
