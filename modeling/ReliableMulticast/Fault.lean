/-!
What can go wrong outside of the protocol: errors of the operating system, and questions to a
role that nobody answers.
-/

namespace ReliableMulticast

inductive IoError
  | brokenPipe
  | connectionRefused
  | addressInUse
  | networkUnreachable
  | tooManyOpenFiles
  /-- The other end of a stream within the process is gone. -/
  | streamGone
deriving DecidableEq, Repr, Inhabited

def IoError.message : IoError → String
  | brokenPipe => "Broken pipe (os error 32)"
  | connectionRefused => "Connection refused (os error 111)"
  | addressInUse => "Address already in use (os error 98)"
  | networkUnreachable => "Network is unreachable (os error 101)"
  | tooManyOpenFiles => "Too many open files (os error 24)"
  | streamGone => "broken pipe"

inductive CallError
  /-- The role with this name takes no more tasks. -/
  | queueClosed (role : String)
  /-- The question was dropped without an answer. -/
  | unanswered
deriving DecidableEq, Repr, Inhabited

def CallError.message : CallError → String
  | queueClosed role => role ++ " task queue is closed"
  | unanswered => "channel closed"

end ReliableMulticast
