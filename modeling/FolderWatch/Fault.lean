import FolderWatch.Path

/-!
What can go wrong in monitoring: a directory that cannot be watched, an operation that does not fit
the state, a scan that fails.
-/

namespace FolderWatch

inductive AccessError where
  | missing
  | notDirectory
  | nameTooLong
  | linkLoop
  | nulByte
  | other (text : String)
  deriving DecidableEq, Repr

namespace AccessError

def message : AccessError → String
  | missing => "No such file or directory (os error 2)"
  | notDirectory => "Not a directory (os error 20)"
  | nameTooLong => "File name too long (os error 36)"
  | linkLoop => "Too many levels of symbolic links (os error 40)"
  | nulByte => "file name contained an unexpected NUL byte"
  | other text => text

end AccessError

inductive Unsuitable where
  | inaccessible (error : AccessError)
  | notDirectory
  | unreadable (error : AccessError)
  | other (text : String)
  deriving DecidableEq, Repr

namespace Unsuitable

def message : Unsuitable → String
  | inaccessible error => "cannot be accessed: " ++ error.message
  | notDirectory => "is not a directory"
  | unreadable error => "is not readable: " ++ error.message
  | other text => text

end Unsuitable

inductive Misuse where
  | monitorRunning
  | monitorStopped
  | directoryChangeWhileRunning
  | scanWhileRunning
  | drainRunning
  | drainStopped
  | noTransition (event state : String)
  | other (text : String)
  deriving DecidableEq, Repr

namespace Misuse

def message : Misuse → String
  | monitorRunning => "monitor is already running"
  | monitorStopped => "monitor is not running"
  | directoryChangeWhileRunning => "cannot change directory while the monitor is running"
  | scanWhileRunning => "cannot scan manually while the poller is running"
  | drainRunning => "batch drain is already running"
  | drainStopped => "batch drain is not running"
  | noTransition event state => "no transition for " ++ event ++ " in state " ++ state
  | other text => text

end Misuse

inductive Fault where
  | configuration (path : Path) (reason : Unsuitable)
  | illegalState (misuse : Misuse)
  | transientScan (path : Path) (source : AccessError)
  deriving DecidableEq, Repr

namespace Fault

def message : Fault → String
  | configuration path reason => "invalid directory " ++ path.display ++ ": " ++ reason.message
  | illegalState misuse => "illegal state: " ++ misuse.message
  | transientScan path source => "failed to scan " ++ path.display ++ ": " ++ source.message

def isConfiguration : Fault → Bool
  | configuration .. => true
  | _ => false

def isIllegalState : Fault → Bool
  | illegalState .. => true
  | _ => false

def source? : Fault → Option AccessError
  | transientScan _ source => some source
  | _ => none

end Fault

end FolderWatch
