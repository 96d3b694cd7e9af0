import AsyncMqtt.ForStd.Except
import AsyncMqtt.ForStd.OrdMap
import AsyncMqtt.Native.SubscriptionMap

/-!
# The security of the broker

`security.hpp`: users, groups, and the authorization of topics. The rules stand in a list in the
order of their numbers. For publishing and for delivery they are also spread over two subscription
maps, from filters and names to the kind and the number of the rule. Subscribing goes through the
list.

The parser of the configuration file is not part of the repository. It is a parameter that takes the
text without comments to a tree of properties.
-/

namespace AsyncMqtt

open scoped ByteOrder

/-- The bytes of a string literal, which is ASCII -/
def ofLiteral (s : String) : Buffer := s.toList.map fun c => UInt8.ofNat c.toNat

/-- What the functions throw: `ptree_bad_path`, `std::runtime_error` with its text, and what the
    subscription map throws -/
inductive SecurityError where
  | badPath (path : Buffer)
  | runtimeError (what : Buffer)
  | subscriptionMap (error : SubscriptionMapError)
  deriving DecidableEq

/-- The `runtime_error` whose text is a literal and a string -/
def SecurityError.ofText (text : String) (name : Buffer) : SecurityError :=
  .runtimeError (ofLiteral text ++ name)

/-! ### The configuration file -/

/-- Where `json_remove_comments` stands -/
structure CommentState where
  insideComment : Bool := false
  insideSingleQuote : Bool := false
  insideDoubleQuote : Bool := false
  insideBlockComment : Bool := false

/-- The last part of the loop of `json_remove_comments`: what is written of a character. A quote that
    is opened by `'` is never closed. -/
def CommentState.write (s : CommentState) (c : UInt8) : CommentState × Buffer :=
  if s.insideBlockComment then (s, [])
  else
    let insideComment := s.insideComment && c ≠ 0x0a
    if insideComment then (s, [])
    else
      let insideSingleQuote := s.insideSingleQuote || (! s.insideDoubleQuote && c = 0x27)
      let insideDoubleQuote := s.insideDoubleQuote ^^ (! insideSingleQuote && c = 0x22)
      (⟨false, insideSingleQuote, insideDoubleQuote, false⟩, [c])

/-- `json_remove_comments` -/
def jsonRemoveComments (s : CommentState) : Buffer → Buffer
  | [] => []
  | [c] => (s.write c).2
  | c :: next :: input =>
    let outside := ! s.insideComment && ! s.insideBlockComment && ! s.insideDoubleQuote &&
      ! s.insideSingleQuote
    if outside && c = 0x2f && next = 0x2f then
      jsonRemoveComments { s with insideComment := true } input
    else if outside && c = 0x2f && next = 0x2a then
      jsonRemoveComments { s with insideBlockComment := true } input
    else if outside && c = 0x2f then c :: next :: jsonRemoveComments s input
    else if s.insideBlockComment && c = 0x2a && next = 0x2f then
      jsonRemoveComments { s with insideBlockComment := false } input
    else (s.write c).2 ++ jsonRemoveComments (s.write c).1 (next :: input)

/-- `boost::property_tree::ptree`: the data and the children with their keys -/
inductive PTree where
  | node (data : Buffer) (children : List (Buffer × PTree))

namespace PTree

/-- `get_value<std::string>` -/
def getValue : PTree → Buffer
  | node data _ => data

/-- What a loop over the tree visits -/
def children : PTree → List (Buffer × PTree)
  | node _ children => children

/-- `get_child_optional`, for a path of one key -/
def getChildOptional (path : String) (t : PTree) : Option PTree :=
  (t.children.find? fun i => i.1 = ofLiteral path).map Prod.snd

/-- `get_child` -/
def getChild (path : String) (t : PTree) : Except SecurityError PTree :=
  match t.getChildOptional path with
  | none => .error (.badPath (ofLiteral path))
  | some child => .ok child

/-- `get<std::string>` -/
def get (path : String) (t : PTree) : Except SecurityError Buffer := do
  let child ← t.getChild path
  .ok child.getValue

/-- `get<std::string>` with a default -/
def getWithDefault (path : String) (default : Buffer) (t : PTree) : Buffer :=
  match t.getChildOptional path with
  | none => default
  | some child => child.getValue

end PTree

/-! ### The data -/

/-- `security::authentication::method` -/
inductive AuthMethod where
  | sha256
  | plainPassword
  | clientCert
  | anonymous
  | unauthenticated
  deriving DecidableEq

/-- `security::authentication` -/
structure Authentication where
  authMethod : AuthMethod
  digest : Option Buffer := none
  salt : Buffer := []

/-- `security::authorization::type` -/
inductive AuthType where
  | deny
  | allow
  | none
  deriving DecidableEq

/-- `security::authorization` -/
structure Authorization where
  topicTokens : List Buffer
  topic : Buffer
  ruleNr : Nat
  subType : AuthType
  sub : OrdSet Buffer
  pubType : AuthType
  pub : OrdSet Buffer

/-- `security::group` -/
structure Group where
  members : List Buffer

/-- `auth_map_type` -/
abbrev AuthMap := MultipleSubscriptionMap Buffer (AuthType × Nat)

/-- `security` -/
structure Security where
  authentication : OrdMap Buffer Authentication
  groups : OrdMap Buffer Group
  authorization : List Authorization
  anonymous : Option Buffer
  unauthenticated : Option Buffer
  authPubMap : AuthMap
  authSubMap : AuthMap

namespace Security

/-- `any_group_name` -/
def anyGroupName : Buffer := ofLiteral "@any"

/-- A new object -/
def make : Security := ⟨∅, ∅, [], none, none, SubscriptionMapBase.make, SubscriptionMapBase.make⟩

/-- `is_valid_group_name` -/
def isValidGroupName (name : Buffer) : Bool := name.head? = some 0x40

/-- `is_valid_user_name` -/
def isValidUserName (name : Buffer) : Bool := name ≠ [] && name.head? ≠ some 0x40

/-- `get_next_rule_nr` -/
def getNextRuleNr (c : Security) : Nat :=
  c.authorization.foldl (fun ruleNr i => max ruleNr i.ruleNr) 0 + 1

/-- `validate_entry` -/
def validateEntry (c : Security) (context name : Buffer) : Except SecurityError Unit :=
  if isValidGroupName name && (c.groups.lookup name).isNone then
    .error (.runtimeError
      (ofLiteral "An invalid group name was specified for " ++ context ++ ofLiteral ": " ++ name))
  else if isValidUserName name && (c.authentication.lookup name).isNone then
    .error (.runtimeError
      (ofLiteral "An invalid username name was specified for " ++ context ++ ofLiteral ": " ++ name))
  else .ok ()

/-- `insert_or_assign` of one of the two maps -/
def assign (topic name : Buffer) (value : AuthType × Nat) (map : AuthMap) :
    Except SecurityError AuthMap :=
  match map.insertOrAssign topic name value with
  | .error e => .error (.subscriptionMap e)
  | .ok (_, map) => .ok map

/-- A loop over names: each one is checked, and inserted with the kind and the number of a rule -/
def validateNames (c : Security) (topic : Buffer) (value : AuthType × Nat) :
    List Buffer → AuthMap → Except SecurityError AuthMap
  | [], map => .ok map
  | j :: names, map => do
    c.validateEntry (ofLiteral "topic " ++ topic) j
    if isValidUserName j || isValidGroupName j then do
      let map ← assign topic j value map
      c.validateNames topic value names map
    else c.validateNames topic value names map

/-- The loop of `validate` over the members of the groups -/
def validateGroups (c : Security) : Except SecurityError Unit :=
  c.groups.entries.forM fun i =>
    i.2.members.forM fun j =>
      if isValidUserName j && (c.authentication.lookup j).isNone then
        .error (.runtimeError
          (ofLiteral "An invalid username name was specified for group " ++ i.1 ++
            ofLiteral ": " ++ j))
      else .ok ()

/-- The loop of `validate` over the rules -/
def validateRules : List Authorization → Security → Except SecurityError Security
  | [], c => .ok c
  | i :: rules, c => do
    let sub ← c.validateNames i.topic (i.subType, i.ruleNr) i.sub.elems c.authSubMap
    let pub ← c.validateNames i.topic (i.pubType, i.ruleNr) i.pub.elems c.authPubMap
    validateRules rules { c with authSubMap := sub, authPubMap := pub }

/-- `validate`, but for the warning about users without salt -/
def validate (c : Security) : Except SecurityError Security := do
  c.validateGroups
  validateRules c.authorization c

/-- `default_config` -/
def defaultConfig (c : Security) : Except SecurityError Security :=
  let username := ofLiteral "anonymous"
  let c := { c with
    authentication := c.authentication.insert username { authMethod := .anonymous }
    anonymous := some username }
  let topic := ofLiteral "#"
  let auth : Authorization :=
    { topicTokens := topicFilterTokens (ofLiteral "#")
      topic
      ruleNr := c.getNextRuleNr
      subType := .allow
      sub := (∅ : OrdSet Buffer).insert username
      pubType := .allow
      pub := (∅ : OrdSet Buffer).insert username }
  validate { c with
    authorization := c.authorization ++ [auth]
    groups := c.groups.insert anyGroupName ⟨[]⟩ }

/-- The loop of `add_auth` that checks names -/
def checkNames (c : Security) (topicFilter : Buffer) (names : List Buffer) :
    Except SecurityError Unit :=
  names.forM fun j =>
    if ! isValidUserName j && ! isValidGroupName j then
      .error (.ofText
        "An invalid username or groupname was specified for the authorization: " j)
    else c.validateEntry (ofLiteral "topic " ++ topicFilter) j

/-- The loop of `add_auth` that inserts names -/
def assignNames (topic : Buffer) (value : AuthType × Nat) :
    List Buffer → AuthMap → Except SecurityError AuthMap
  | [], map => .ok map
  | j :: names, map => do
    let map ← assign topic j value map
    assignNames topic value names map

/-- `add_auth`: the number of the new rule -/
def addAuth (topicFilter : Buffer) (pub : OrdSet Buffer) (authPubType : AuthType)
    (sub : OrdSet Buffer) (authSubType : AuthType) (c : Security) :
    Except SecurityError (Nat × Security) := do
  c.checkNames topicFilter pub.elems
  c.checkNames topicFilter sub.elems
  let ruleNr := c.getNextRuleNr
  let auth : Authorization :=
    { topicTokens := topicFilterTokens topicFilter
      topic := topicFilter
      ruleNr
      subType := authSubType
      sub
      pubType := authPubType
      pub }
  let subMap ← assignNames topicFilter (authSubType, ruleNr) sub.elems c.authSubMap
  let pubMap ← assignNames topicFilter (authPubType, ruleNr) pub.elems c.authPubMap
  .ok (ruleNr, { c with
    authSubMap := subMap, authPubMap := pubMap, authorization := c.authorization ++ [auth] })

/-- The loops of `remove_auth` that erase names -/
def eraseNames (topic : Buffer) (names : List Buffer) (map : AuthMap) : AuthMap :=
  names.foldl (fun map j => (map.erase topic j).2) map

/-- `remove_auth`: the first rule with the number -/
def removeAuth (ruleNr : Nat) (c : Security) : Security :=
  match c.authorization.find? fun i => i.ruleNr = ruleNr with
  | none => c
  | some i =>
    { c with
      authSubMap := eraseNames i.topic i.sub.elems c.authSubMap
      authPubMap := eraseNames i.topic i.pub.elems c.authPubMap
      authorization := c.authorization.eraseP fun i => i.ruleNr = ruleNr }

/-! ### `load_json` -/

/-- One turn of the loop over `authentication` -/
def loadAuthentication (c : Security) (i : PTree) : Except SecurityError Security := do
  let name ← i.get "name"
  if ! isValidUserName name then .error (.ofText "An invalid username was specified: " name)
  else do
    let method ← i.get "method"
    let insert (c : Security) (auth : Authentication) : Except SecurityError Security :=
      .ok { c with authentication := c.authentication.insert name auth }
    if method = ofLiteral "sha256" then do
      let digest ← i.get "digest"
      let salt := i.getWithDefault "salt" []
      insert c ⟨.sha256, some digest, salt⟩
    else if method = ofLiteral "plain_password" then do
      let digest ← i.get "password"
      insert c ⟨.plainPassword, some digest, []⟩
    else if method = ofLiteral "client_cert" then insert c { authMethod := .clientCert }
    else if method = ofLiteral "anonymous" then
      match c.anonymous with
      | some user => .error (.ofText
          "Only a single anonymous user can be configured, anonymous user: " user)
      | none => insert { c with anonymous := some name } { authMethod := .anonymous }
    else if method = ofLiteral "unauthenticated" then
      match c.unauthenticated with
      | some user => .error (.ofText
          "Only a single unauthenticated user can be configured, unauthenticated user: " user)
      | none => insert { c with unauthenticated := some name } { authMethod := .unauthenticated }
    else .error (.ofText "An invalid method was specified: " method)

/-- One turn of the loop over `members` -/
def loadMember (j : PTree) : Except SecurityError Buffer :=
  let username := j.getValue
  if ! isValidUserName username then
    .error (.ofText "An invalid user name was specified: " username)
  else .ok username

/-- One turn of the loop over `group` -/
def loadGroup (c : Security) (i : PTree) : Except SecurityError Security := do
  let name ← i.get "name"
  if ! isValidGroupName name then .error (.ofText "An invalid group name was specified: " name)
  else do
    let members ← match i.getChildOptional "members" with
      | none => .ok []
      | some members => members.children.mapM fun j => loadMember j.2
    .ok { c with groups := c.groups.insert name ⟨members⟩ }

/-- A loop that inserts the names below a key, and whether there is the key -/
def loadNames (key : String) (names : OrdSet Buffer) (i : PTree) : OrdSet Buffer × Bool :=
  match i.getChildOptional key with
  | none => (names, false)
  | some child => (child.children.foldl (fun names j => names.insert j.2.getValue) names, true)

/-- What stands below `allow` or `deny` in a rule -/
def loadType (key : String) (type : AuthType) (i : PTree) (auth : Authorization) : Authorization :=
  match i.getChildOptional key with
  | none => auth
  | some child =>
    let (sub, hasSub) := loadNames "sub" auth.sub child
    let (pub, hasPub) := loadNames "pub" auth.pub child
    { auth with
      sub, pub
      subType := if hasSub then type else auth.subType
      pubType := if hasPub then type else auth.pubType }

/-- One turn of the loop over `authorization` -/
def loadAuthorization (c : Security) (i : PTree) : Except SecurityError Security := do
  let name ← i.get "topic"
  if ! validateTopicFilter name then
    .error (.ofText "An invalid topic filter was specified: " name)
  else
    let auth : Authorization :=
      { topicTokens := topicFilterTokens name
        topic := name
        ruleNr := c.getNextRuleNr
        subType := .none
        sub := ∅
        pubType := .none
        pub := ∅ }
    let auth := loadType "deny" .deny i (loadType "allow" .allow i auth)
    .ok { c with authorization := c.authorization ++ [auth] }

/-- `load_json` -/
def loadJson (readJson : Buffer → Except SecurityError PTree) (input : Buffer) (c : Security) :
    Except SecurityError Security := do
  let root ← readJson (jsonRemoveComments {} input)
  let c := { c with groups := c.groups.insert anyGroupName ⟨[]⟩ }
  let authentication ← root.getChild "authentication"
  let c ← authentication.children.foldlM (fun c i => c.loadAuthentication i.2) c
  let c ← match root.getChildOptional "group" with
    | none => .ok c
    | some group => group.children.foldlM (fun c i => c.loadGroup i.2) c
  let authorization ← root.getChild "authorization"
  let c ← authorization.children.foldlM (fun c i => c.loadAuthorization i.2) c
  c.validate

/-! ### Authorization -/

/-- A loop over the groups: those of the user, and the group of everyone -/
def userGroups (c : Security) (username : Buffer) : List Buffer :=
  (c.groups.entries.filter fun i => i.1 = anyGroupName || username ∈ i.2.members).map Prod.fst

/-- `username_and_groups` -/
def usernameAndGroups (c : Security) (username : Buffer) : OrdSet Buffer :=
  (c.userGroups username).foldl OrdSet.insert ((∅ : OrdSet Buffer).insert username)

/-- `auth_pub`, with the result and the priority so far -/
def authPubEntry (names : OrdSet Buffer) (acc : AuthType × Nat) (i : Buffer × AuthType × Nat) :
    AuthType × Nat :=
  if i.1 ∈ names then if acc.2 ≤ i.2.2 then i.2 else acc else acc

/-- `auth_pub` -/
def authPub (c : Security) (topic username : Buffer) : AuthType :=
  ((c.authPubMap.find topic).foldl (authPubEntry (c.usernameAndGroups username)) (.deny, 0)).1

/-- The callback of `auth_sub`. The result and the priorities have the same keys, and are one map
    here. -/
def authSubEntry (result : AList fun _ : Buffer => AuthType × Nat) (i : Buffer × AuthType × Nat) :
    AList fun _ : Buffer => AuthType × Nat :=
  match result.lookup i.1 with
  | none => result.insert i.1 i.2
  | some p => if p.2 ≤ i.2.2 then result.insert i.1 i.2 else result

/-- `auth_sub` -/
def authSub (c : Security) (topic : Buffer) : AList fun _ : Buffer => AuthType × Nat :=
  (c.authSubMap.find topic).foldl authSubEntry ∅

/-- `auth_sub_user` -/
def authSubUser (c : Security) (result : AList fun _ : Buffer => AuthType × Nat)
    (username : Buffer) : AuthType :=
  match result.lookup username with
  | some i => i.1
  | none =>
    match (c.userGroups username).findSome? fun group => result.lookup group with
    | some j => j.1
    | none => .deny

/-! ### Authorization of subscriptions -/

/-- `append_result` -/
def appendResult (result : Option Buffer) (token : Buffer) : Option Buffer :=
  match result with
  | some result => some (result ++ topicFilterSeparator :: token)
  | none => some token

/-- The loop of `is_subscribe_allowed`, over the levels of both filters -/
def allowedLevels : Option Buffer → List Buffer → List Buffer → Option Buffer
  | _, [], _ => none
  | result, auth :: filter, subscription =>
    if auth = hashLevel then
      appendResult result ([topicFilterSeparator].intercalate subscription)
    else
      match subscription with
      | [] => none
      | sub :: subscription =>
        if sub = hashLevel then filter.foldl appendResult (appendResult result auth)
        else if auth ≠ plusLevel ∧ sub ≠ plusLevel ∧ auth ≠ sub then none
        else
          let result := appendResult result (if auth = plusLevel then sub else auth)
          if subscription.isEmpty then if filter.isEmpty then result else none
          else allowedLevels result filter subscription

/-- `is_subscribe_allowed` -/
def isSubscribeAllowed (authorizedFilter : List Buffer) (subscriptionFilter : Buffer) :
    Option Buffer :=
  allowedLevels none authorizedFilter (topicFilterTokens subscriptionFilter)

/-- The callback of `is_subscribe_denied`: the result, and the number of the levels that are seen -/
def deniedLevels : List Buffer → List Buffer → Bool × Nat
  | _, [] => (true, 0)
  | [], _ :: _ => (false, 1)
  | deny :: filter, sub :: subscription =>
    if deny ≠ sub ∧ deny = hashLevel then (true, 1)
    else if deny ≠ sub ∧ sub = hashLevel then (false, 1)
    else if deny ≠ sub ∧ deny ≠ plusLevel then (false, 1)
    else
      let (result, tokensCount) := deniedLevels filter subscription
      (result, tokensCount + 1)

/-- `is_subscribe_denied` -/
def isSubscribeDenied (denyFilter : List Buffer) (subscriptionFilter : Buffer) : Bool :=
  let (result, tokensCount) := deniedLevels denyFilter (topicFilterTokens subscriptionFilter)
  result && tokensCount = denyFilter.length

/-- `get_auth_sub_by_user`: the rules that are called back -/
def getAuthSubByUser (c : Security) (username : Buffer) : List Authorization :=
  c.authorization.filter fun i =>
    i.subType ≠ .none && i.sub.elems.any fun j => j ∈ c.usernameAndGroups username

/-- The callback of `get_auth_sub_topics` -/
def authSubTopicsEntry (topicFilter : Buffer) (authTopics : List Buffer) (i : Authorization) :
    List Buffer :=
  if i.subType = .allow then authTopics ++ (isSubscribeAllowed i.topicTokens topicFilter).toList
  else authTopics.filter fun _ => ! isSubscribeDenied i.topicTokens topicFilter

/-- `get_auth_sub_topics` -/
def getAuthSubTopics (c : Security) (username topicFilter : Buffer) : List Buffer :=
  (c.getAuthSubByUser username).foldl (authSubTopicsEntry topicFilter) []

/-- `is_subscribe_authorized` -/
def isSubscribeAuthorized (c : Security) (username topicFilter : Buffer) : Bool :=
  ! (c.getAuthSubTopics username topicFilter).isEmpty

end Security

end AsyncMqtt
