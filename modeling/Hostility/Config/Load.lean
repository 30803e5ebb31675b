import Hostility.Config.Format
import Hostility.Config.Validation
import Hostility.Document.Reader

/-!
Loading a configuration: the document is read, turned into a configuration, and checked.
-/
namespace Hostility

inductive LoadError where
  | missing
  /-- The document is not well formed or a field is not of its kind. -/
  | malformed
  | invalid (fault : Fault)
  deriving DecidableEq

def LoadError.message : LoadError → String
  | .missing => "Failed to open config file: No such file or directory (os error 2)"
  | .malformed => "Failed to parse config file"
  | .invalid fault => "Invalid configuration: " ++ fault.message

namespace Configuration

def ofDocument (env : Environment) (d : Datum) : Except LoadError Configuration :=
  match ofDatum? env d with
  | none => .error .malformed
  | some c =>
    match c.fault? with
    | some fault => .error (.invalid fault)
    | none => .ok c

/-- A text without any fields configures nothing, so everything takes its default. -/
def ofText (env : Environment) (s : String) : Except LoadError Configuration :=
  match Datum.read? s with
  | none => .error .malformed
  | some d => ofDocument env d

end Configuration

end Hostility
