import AsyncMqtt.Native.RetainedTopicMap
import AsyncMqtt.Native.Security

/-!
# Response topics

What a session that requests response information does to the security of the broker:
`set_response_topic` of the broker, and `set_clean_handler`, `clean` and the destructor of
`session_state`, as far as the response topic and the clean handler are concerned.

The handler is a closure, of which the captures are kept. What `create_uuid_string` returns is a
parameter.
-/

namespace AsyncMqtt

open scoped ByteOrder

/-- `clean_handler_`: what the closure of `set_response_topic` captures -/
structure CleanHandler where
  responseTopic : Buffer
  ruleNr : Nat

/-- The members of `session_state` that `set_response_topic` and `clean` read and write -/
structure ResponseSession where
  username : Buffer
  responseTopic : Option Buffer
  cleanHandler : Option CleanHandler

/-- The sessions with the members of the broker that their handlers change. A session is known by a
    number, as the object is by its address. -/
structure ResponseTopics (V : Type) where
  security : Security
  retains : RetainedTopicMap V
  sessions : AList fun _ : Nat => ResponseSession

namespace ResponseTopics

variable {V : Type}

/-- The response topic that `set_response_topic` uses -/
def topicOf (uuid : Buffer) (ss : ResponseSession) : Buffer := ss.responseTopic.getD uuid

/-- `broker::set_response_topic` -/
def setResponseTopic (id : Nat) (uuid : Buffer) (ss : ResponseSession) (s : ResponseTopics V) :
    Except SecurityError (ResponseTopics V) := do
  let responseTopic := topicOf uuid ss
  let (ruleNr, security) ← s.security.addAuth responseTopic
    ((∅ : OrdSet Buffer).insert Security.anyGroupName) .allow
    ((∅ : OrdSet Buffer).insert ss.username) .allow
  .ok { s with
    security
    sessions := s.sessions.insert id
      { ss with responseTopic := some responseTopic, cleanHandler := some ⟨responseTopic, ruleNr⟩ } }

/-- The call of `clean_handler_` -/
def callCleanHandler (ss : ResponseSession) (s : ResponseTopics V) : ResponseTopics V :=
  match ss.cleanHandler with
  | none => s
  | some h => { s with
      retains := (s.retains.erase h.responseTopic).2
      security := s.security.removeAuth h.ruleNr }

/-- `session_state::clean`. The handler stays. -/
def clean (id : Nat) (ss : ResponseSession) (s : ResponseTopics V) : ResponseTopics V :=
  let s := callCleanHandler ss s
  { s with sessions := s.sessions.insert id { ss with responseTopic := none } }

/-- `~session_state` -/
def destroy (id : Nat) (ss : ResponseSession) (s : ResponseTopics V) : ResponseTopics V :=
  let s := s.clean id ss
  { s with sessions := s.sessions.erase id }

/-- What happens to a session: it is created, `set_response_topic` is called for a CONNECT that
    requests response information, `renew` calls `clean`, and it is destroyed. -/
inductive Call where
  | create (id : Nat) (username : Buffer)
  | setResponseTopic (id : Nat) (uuid : Buffer)
  | clean (id : Nat)
  | destroy (id : Nat)

/-- The call is made, if there is the session. -/
def perform (s : ResponseTopics V) : Call → Except SecurityError (ResponseTopics V)
  | .create id username =>
    .ok { s with sessions := s.sessions.insert id ⟨username, none, none⟩ }
  | .setResponseTopic id uuid =>
    match s.sessions.lookup id with
    | none => .ok s
    | some ss => s.setResponseTopic id uuid ss
  | .clean id =>
    match s.sessions.lookup id with
    | none => .ok s
    | some ss => .ok (s.clean id ss)
  | .destroy id =>
    match s.sessions.lookup id with
    | none => .ok s
    | some ss => .ok (s.destroy id ss)

/-- A broker without sessions -/
def make (security : Security) (retains : RetainedTopicMap V) : ResponseTopics V :=
  ⟨security, retains, ∅⟩

end ResponseTopics

end AsyncMqtt
