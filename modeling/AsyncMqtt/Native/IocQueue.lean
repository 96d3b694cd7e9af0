/-!
# A queue of handlers

`util/ioc_queue.hpp`: an `io_context` that is not run by a thread. Its owner posts handlers
to it and runs them one at a time, the next one when the work of the one before is done.

An `io_context` counts the handlers that are posted and the guard, and it stops itself when
nothing is left to count.
-/

namespace AsyncMqtt

/-- `ioc_queue`. `handlers` are the ones that are posted to `queue_`, and `guarded` says that
    `guard_` has a value. -/
structure IocQueue (α : Type) where
  handlers : List α
  stopped : Bool
  working : Bool
  guarded : Bool
  deriving DecidableEq

namespace IocQueue

variable {α : Type}

/-- The constructor -/
def make : IocQueue α := ⟨[], true, false, false⟩

/-- `start_work` -/
def startWork (q : IocQueue α) : IocQueue α := { q with working := true, guarded := true }

/-- `stop_work`: without the guard and without handlers the context stops. -/
def stopWork (q : IocQueue α) : IocQueue α :=
  { q with guarded := false, stopped := q.stopped || q.handlers.isEmpty }

/-- `immediate_executable` -/
def immediateExecutable (q : IocQueue α) : Bool := ! q.working && q.stopped

/-- `post` -/
def post (q : IocQueue α) (h : α) : IocQueue α := { q with handlers := q.handlers ++ [h] }

/-- `poll_one`: the handler that is to be executed, if there is one. -/
def pollOne (q : IocQueue α) : Option α × IocQueue α :=
  match q.handlers with
  | [] => (none, { q with working := false, stopped := ! q.guarded })
  | h :: hs => (some h, { q with working := false, stopped := false, handlers := hs })

/-- `try_execute` -/
def tryExecute (q : IocQueue α) : Option α × IocQueue α :=
  if q.immediateExecutable then q.pollOne else (none, q)

end IocQueue

end AsyncMqtt
