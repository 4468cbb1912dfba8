import PinnedPool.Os.Number
import PinnedPool.Text.Quoted

/-! # Errors of the operating system

An error carries the system's number, or only its kind, or a text of its maker.
-/
namespace PinnedPool.Os

inductive Error where
  /-- A number of the system's, which may be one that it does not use. -/
  | numbered (code : Int32)
  | plain (kind : Kind)
  | described (kind : Kind) (text : String)
  | custom (text : String)
deriving DecidableEq, Repr

namespace Error

/-- There is no file of that name. -/
def missing : Error := numbered 2

/-- The name is that of a directory. -/
def directory : Error := numbered 21

/-- A request that the system cannot make sense of. -/
def invalidArgument : Error := numbered 22

def notText : Error := described .invalidData "stream did not contain valid UTF-8"

def message : Error → String
  | numbered code => (lookup code).2 ++ " (os error " ++ toString code ++ ")"
  | plain kind => kind.describe
  | described _ text => text
  | custom text => text

/-- The error as a term. -/
def term : Error → String
  | numbered code =>
    let (kind, text) := lookup code
    "Os \x7b code: " ++ toString code ++ ", kind: " ++ kind.name ++ ", message: "
      ++ Text.quoted text ++ " \x7d"
  | plain kind => "Kind(" ++ kind.name ++ ")"
  | described kind text =>
    "Error \x7b kind: " ++ kind.name ++ ", message: " ++ Text.quoted text ++ " \x7d"
  | custom text => "Custom \x7b kind: Other, error: " ++ Text.quoted text ++ " \x7d"

end Error
end PinnedPool.Os
