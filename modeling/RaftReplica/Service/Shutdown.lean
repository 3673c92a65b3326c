/-!
# Shutting a service down

A service runs until its shutdown signal fires. The signal has one handle; it fires when the handle is
used and also when the handle is gone, so that a service never outlives whoever could stop it.
-/

namespace RaftReplica

/-- What has become of the handle of a shutdown signal. -/
inductive ShutdownHandle where
  | held
  | used
  | gone
deriving DecidableEq, Repr

/-- A shutdown signal, as far as it has come. -/
inductive ShutdownSignal where
  | pending
  | fired
deriving DecidableEq, Repr

/-- How the signal stands. -/
def ShutdownHandle.signal : ShutdownHandle → ShutdownSignal
  | held => .pending
  | used | gone => .fired

/-- Whether a service that waits for the signal has stopped. -/
def ShutdownSignal.stopsService : ShutdownSignal → Bool
  | pending => false
  | fired => true

end RaftReplica
