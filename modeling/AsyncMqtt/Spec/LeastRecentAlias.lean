import AsyncMqtt.Spec.SendNotLost
import AsyncMqtt.Spec.TopicAliasUses

/-!
# The alias of a new topic

A run of a connection with the uses of its topic aliases beside it, and with a clock that
advances between the calls. As long as the table of aliases is written exactly at the uses, its
entries stand in the order of last use, and a new topic gets an alias that was never used, or
else the one whose last use lies furthest back.

## Key results

- `AliasRun.InOrder.next`: one call
- `AliasRun.assigns_least_recent`: every run whose calls write the table at the uses
- `AliasRun.assigns_last_used`: an alias that is found by its topic is given away nevertheless
-/

namespace AsyncMqtt

open Connection

/-- A run of a connection. -/
structure AliasRun (role : Role) (pb : PacketIdBytes) where
  conn : Connection role pb
  /-- the uses of aliases since the table was made, the oldest first -/
  uses : List Nat
  /-- the time of the last call -/
  clock : Nat

namespace AliasRun

variable {role : Role} {pb : PacketIdBytes}

def start (role : Role) (pb : PacketIdBytes) (ver : ProtocolVersion) : AliasRun role pb :=
  ⟨.make role pb ver, [], 0⟩

/-- The connection when it is called again; the steady clock has advanced. -/
def later (s : AliasRun role pb) (pause : Nat) : Connection role pb :=
  { s.conn with now := s.clock + pause + 1 }

/-- The run after a call. -/
def next (s : AliasRun role pb) (x : Nat × Op pb) : AliasRun role pb where
  conn := (s.later x.1).next x.2
  uses := (if x.2.opensTable (s.later x.1) then [] else s.uses) ++
    usedAliases ((s.later x.1).call x.2).events
  clock := s.clock + x.1 + 1

/-- If the call sends a PUBLISH whose topic is not in the table then this PUBLISH is sent with an
    alias that was never used, or if there is none, with the one whose last use lies furthest
    back. -/
def AssignsLeastRecent (s : AliasRun role pb) (x : Nat × Op pb) : Prop :=
  ∀ p t, x.2 = .send (.v5Publish p) → (s.later x.1).autoMapTopicAliasSend →
    (s.later x.1).topicAliasSend = some t → p.topic ≠ [] → getTopicAlias p.props = none →
    t.findAlias p.topic = none → ∀ q ∈ sends ((s.later x.1).call x.2).events,
      ∃ ta, q.usedAlias = some ta ∧ TopicAliasSend.Assigns t.max s.uses ta

/-- The entries of the table stand in the order of last use. -/
def InOrder (s : AliasRun role pb) : Prop :=
  ∀ t, s.conn.topicAliasSend = some t → t.Recent s.uses s.clock ∧ t.max < 2 ^ 16

theorem inOrder_start (ver : ProtocolVersion) : (start role pb ver).InOrder := nofun

/-- What `send` does to the table. -/
theorem send_aliases {c : Connection role pb} (hvalid : c.AliasesValid) (p : V5.PublishPacket pb) :
    c.passesChecks (.v5Publish p) ∧ PublishAliases c p (c.send (.v5Publish p)) ∨
      (c.send (.v5Publish p)).conn.topicAliasSend = c.topicAliasSend ∧
        sends (c.send (.v5Publish p)).events = [] := by
  by_cases hpass : c.passesChecks (.v5Publish p) = true
  · left
    obtain ⟨hallowed, hsize⟩ := Bool.and_eq_true_iff.mp hpass
    have htable := (send_of_actual hallowed hsize nofun).1.table
    have hsends := (send_publish_sends rfl hpass).1
    refine ⟨hpass, ?_⟩
    -- the table after the call and the aliases of what was sent, in each of the four outcomes
    cases sendPublishV5_aliases hvalid p with
    | kept h hs => exact .kept (htable.trans h) (hsends.trans hs)
    | sent hstatus henters hnot h hs =>
      exact .sent hstatus henters hnot (htable.trans h) (hsends.trans hs)
    | stopped hstatus hqos henters hnot hmax h hs =>
      exact .stopped hstatus hqos henters hnot hmax (htable.trans h) (hsends.trans hs)
    | refused hstatus hqos hused hstores htopic hfound hnone =>
      exact .refused hstatus hqos hused hstores htopic hfound hnone
  · right
    refine ⟨?_, (send_line_refused hpass).2⟩
    obtain ⟨packetId, hsend⟩ := send_refused hpass
    rw [hsend]
    exact failRelease_table _ _ _

section

variable {s : AliasRun role pb} {x : Nat × Op pb}

theorem InOrder.aliasesValid (h : s.InOrder) (pause : Nat) : (s.later pause).AliasesValid :=
  fun t ht => (h t ht).1.valid

/-- A call that leaves the table alone and uses no alias. -/
theorem InOrder.kept (h : s.InOrder) (hopens : x.2.opensTable (s.later x.1) = false)
    (htable : ((s.later x.1).call x.2).conn.topicAliasSend = (s.later x.1).topicAliasSend)
    (huses : usedAliases ((s.later x.1).call x.2).events = []) : (s.next x).InOrder := by
  intro t ht
  have ht : s.conn.topicAliasSend = some t := htable.symm.trans ht
  obtain ⟨hr, hmax⟩ := h t ht
  refine ⟨?_, hmax⟩
  show t.Recent ((if x.2.opensTable (s.later x.1) then [] else s.uses) ++ _) (s.clock + x.1 + 1)
  rw [hopens, huses, if_neg Bool.false_ne_true, List.append_nil]
  exact hr.later (by omega)

/-- A PUBLISH keeps the order if it writes the table exactly at a use. -/
theorem InOrder.publish (h : s.InOrder) {p : V5.PublishPacket pb} (hx : x.2 = .send (.v5Publish p))
    (hok : KeepsOrder (s.later x.1) s.uses x.2) : (s.next x).InOrder := by
  have hopens : x.2.opensTable (s.later x.1) = false := by
    rw [hx]
    rfl
  have hcall : (s.later x.1).call x.2 = (s.later x.1).send (.v5Publish p) := by
    rw [hx]
    rfl
  rw [hx] at hok
  obtain ⟨hwrites, hcopy⟩ := hok
  have hnone : ∀ {es : List (Event pb)}, sends es = [] → usedAliases es = [] := by
    intro es hes
    rw [usedAliases, hes]
    rfl
  rcases send_aliases (h.aliasesValid x.1) p with ⟨hpass, hpub⟩ | ⟨htable, hsends⟩
  · have hreaches : (s.later x.1).status = .connected →
        (isQos12 p.opts → (s.later x.1).publishEnters (.v5Publish p)) →
        (s.later x.1).reachesAliases p := by
      intro hstatus henters
      by_cases hqos : isQos12 p.opts = true
      · simp [reachesAliases, hpass, hstatus, henters hqos]
      · simp [reachesAliases, hpass, hstatus, hqos]
    cases hpub with
    | kept htable hsends =>
      exact h.kept hopens (by rw [hcall, htable]) (by rw [hcall]; exact hnone hsends)
    | sent hstatus henters hvalid htable hsends =>
      intro t' ht'
      have ht' : ((s.later x.1).aliasApplied p).1 = some t' := by
        rw [← htable, ← hcall]
        exact ht'
      cases htas : (s.later x.1).topicAliasSend with
      | none =>
        rw [aliasApplied_of_no_table htas hvalid] at ht'
        cases ht'
      | some t =>
        obtain ⟨hr, hmax⟩ := h t htas
        have hclock : s.clock < (s.later x.1).now := by
          show s.clock < s.clock + x.1 + 1
          omega
        obtain ⟨t'', heq, hmax', hr'⟩ := aliasApplied_recent htas hr hmax hclock hstatus hvalid
          (hwrites (hreaches hstatus henters) t htas)
        obtain rfl := Option.some.inj (heq.symm.trans ht')
        refine ⟨?_, hmax'⟩
        have huses : usedAliases ((s.later x.1).call x.2).events =
            (getTopicAlias ((s.later x.1).aliasApplied p).2.props).toList := by
          rw [hcall, usedAliases, hsends, List.filterMap_cons, PacketVariant.usedAlias]
          cases getTopicAlias ((s.later x.1).aliasApplied p).2.props <;> rfl
        show t''.Recent ((if x.2.opensTable (s.later x.1) then [] else s.uses) ++ _) _
        rw [hopens, huses, if_neg Bool.false_ne_true]
        exact hr'
    | stopped hstatus hqos henters hvalid hmax htable hsends =>
      -- the table was not written
      refine h.kept hopens ?_ (by rw [hcall]; exact hnone hsends)
      rw [hcall, htable]
      cases htas : (s.later x.1).topicAliasSend with
      | none => rw [aliasApplied_of_no_table htas hvalid]
      | some t =>
        apply aliasApplied_of_not_writes htas
        intro hw
        exact (hwrites (hreaches hstatus fun _ => henters) t htas).sent hqos hw hmax
    | refused hstatus hqos hused hstores htopic hfound hnot =>
      apply absurd _ hcopy
      simp [copyRefused, hpass, hstatus, hqos, hused, hstores, htopic, hfound, hnot]
  · exact h.kept hopens (by rw [hcall, htable]) (by rw [hcall]; exact hnone hsends)

/-- One call. -/
theorem InOrder.next (h : s.InOrder) (hok : KeepsOrder (s.later x.1) s.uses x.2) :
    (s.next x).InOrder := by
  -- a PUBLISH is counted by its own lemma, any other call uses an alias only by sending the store
  by_cases hpub : ∃ p, x.2 = .send (.v5Publish p)
  · obtain ⟨p, hx⟩ := hpub
    exact h.publish hx hok
  · have hop : ∀ p, x.2 ≠ .send (.v5Publish p) := fun p hx => hpub ⟨p, hx⟩
    have hstore : x.2.resends → (s.later x.1).StoresTopics := by
      unfold KeepsOrder at hok
      split at hok
      · next p hx => exact absurd hx (hop p)
      · exact hok
    cases call_unused hop hstore with
    | kept hopens htable huses => exact h.kept hopens htable huses
    | none htable huses =>
      intro t ht
      exact nomatch htable.symm.trans ht
    | new hopens htable huses =>
      intro t ht
      obtain ⟨hmax, hlow, heq⟩ := htable t ht
      refine ⟨?_, hmax⟩
      show t.Recent ((if x.2.opensTable (s.later x.1) then [] else s.uses) ++ _) _
      rw [hopens, huses, if_pos rfl, List.append_nil, heq]
      exact TopicAliasSend.recent_make _ _ _

/-- While the order is kept the alias of a new topic is the right one. -/
theorem InOrder.assigns (h : s.InOrder) : AssignsLeastRecent s x := by
  intro p t hx hauto ht htopic halias hfind q hq
  obtain ⟨hr, hmax⟩ := h t ht
  have hassigns := hr.assigns
  refine ⟨t.getLruAlias, ?_, hassigns⟩
  rw [hx] at hq
  have hline := @send_line_publish role pb (s.later x.1) (.v5Publish p) rfl
  -- the packet is sent, or nothing is
  rcases hline.2 with hnil | ⟨hstatus, -, hsends⟩
  · have hq : q ∈ sends ((s.later x.1).send (.v5Publish p)).events := hq
    rw [hnil] at hq
    exact nomatch hq
  · have hq : q ∈ sends ((s.later x.1).send (.v5Publish p)).events := hq
    rw [hsends] at hq
    obtain rfl := List.mem_singleton.mp hq
    have happlied : ((s.later x.1).aliasApplied p).2 = p.addTopicAlias t.getLruAlias := by
      unfold aliasApplied
      rw [if_neg htopic, halias]
      dsimp only
      rw [if_pos hstatus]
      unfold autoTopicAlias
      rw [ht]
      dsimp only
      rw [if_pos hauto, hfind]
    show getTopicAlias ((s.later x.1).aliasApplied p).2.props = _
    rw [happlied]
    have hrange := hassigns.range
    exact getTopicAlias_concat halias (by omega)

/-- A new topic does not get the right alias if it gets the one that was used last. -/
theorem not_assigns_of_last {c : Connection role pb} {p : V5.PublishPacket pb}
    (max ta other : Nat) (hc : s.later 0 = c) (hauto : c.autoMapTopicAliasSend)
    (htable : c.topicAliasSend.map (fun t => (t.max, t.findAlias p.topic)) = some (max, none))
    (htopic : p.topic ≠ []) (halias : getTopicAlias p.props = none)
    (hlast : s.uses.getLast? = some ta) (hother : 1 ≤ other ∧ other ≤ max) (hne : other ≠ ta)
    (hall : ∀ v, v ≤ max → 1 ≤ v → v ∈ s.uses)
    (hsent : usedAliases (c.call (.send (.v5Publish p))).events = [ta]) :
    ¬ AssignsLeastRecent s (0, .send (.v5Publish p)) := by
  subst hc
  intro hassigns
  obtain ⟨t, ht, htable⟩ := Option.map_eq_some_iff.mp htable
  obtain ⟨rfl, hfind⟩ := Prod.mk.inj htable
  have hmem : ta ∈ usedAliases ((s.later 0).call (.send (.v5Publish p))).events := by
    rw [hsent]
    exact List.mem_singleton_self ta
  obtain ⟨q, hq, hqta⟩ := List.mem_filterMap.mp hmem
  obtain ⟨ta', hta', hok⟩ := hassigns p t rfl hauto ht htopic halias hfind q hq
  obtain rfl := Option.some.inj (hta'.symm.trans hqta)
  exact TopicAliasSend.not_assigns_last hlast hother hne (fun v hlow hhigh => hall v hhigh hlow) hok

end

/-! ### Runs -/

/-- In every run whose calls write the table of aliases exactly at the uses, a topic that is not
    in the table gets an alias that was never used, or else the least recently used one. -/
theorem assigns_least_recent (ver : ProtocolVersion) (calls : List (Nat × Op pb))
    (hok : Run.All next (fun s x => KeepsOrder (s.later x.1) s.uses x.2) (start role pb ver) calls) :
    Run.All next AssignsLeastRecent (start role pb ver) calls := by
  intro j x hj
  have horder : (Run.final next (start role pb ver) (calls.take j)).InOrder :=
    Run.final_invariant (fun _ _ hx h => h.next hx) (inOrder_start ver) (hok.take j)
  exact horder.assigns

/-- A PUBLISH with QoS 0 whose topic is not in the table meets the condition. -/
theorem keepsOrder_of_new {c : Connection role pb} {uses : List Nat} {p : V5.PublishPacket pb}
    (hfind : c.topicAliasSend.map (TopicAliasSend.findAlias · p.topic) = some none)
    (halias : getTopicAlias p.props = none) (hqos : ¬ isQos12 p.opts)
    (hcopy : ¬ c.copyRefused p) : KeepsOrder c uses (.send (.v5Publish p)) := by
  refine ⟨fun _ t ht => ?_, hcopy⟩
  have hfind : t.findAlias p.topic = none := by
    rw [ht] at hfind
    exact Option.some.inj hfind
  constructor
  · intro _ _ _ ta hta
    cases hfind.symm.trans hta
  · intro _ ta hta
    cases halias.symm.trans hta
  · exact fun hqos' => absurd hqos' hqos

/-- A client with two aliases sends three topics: the last one gets the alias of the first one. -/
theorem assigns_least_recent_new :
    ∃ p a b d, V5.connectPacket true 0 [] none none none [] = .ok p ∧
      V5.publishPacket .two 0 [0x61] [[0x78]] 0 [] = .ok a ∧
      V5.publishPacket .two 0 [0x62] [[0x78]] 0 [] = .ok b ∧
      V5.publishPacket .two 0 [0x63] [[0x78]] 0 [] = .ok d ∧
      let calls : List (Nat × Op .two) := [(0, .setAutoMapTopicAliasSend true),
        (0, .send (.v5Connect p)), (0, .recv [0x20, 0x06, 0, 0, 3, 0x22, 0, 2]),
        (0, .send (.v5Publish a)), (0, .send (.v5Publish b)), (0, .send (.v5Publish d))]
      Run.All next AssignsLeastRecent (start .client .two .v5) calls ∧
        (Run.final next (start .client .two .v5) calls).uses = [1, 2, 1] := by
  refine ⟨_, _, _, _, rfl, rfl, rfl, rfl, assigns_least_recent .v5 _ ?_, by decide +kernel⟩
  simp only [Run.all_cons, Run.all_nil, and_true]
  refine ⟨by rintro ⟨⟩, by rintro ⟨⟩, fun _ _ he => absurd he List.not_mem_nil, ?_, ?_, ?_⟩
  · exact keepsOrder_of_new (by decide +kernel) rfl (by decide) (by decide +kernel)
  · exact keepsOrder_of_new (by decide +kernel) rfl (by decide) (by decide +kernel)
  · exact keepsOrder_of_new (by decide +kernel) rfl (by decide) (by decide +kernel)

/-- Three topics and two aliases: the topic `a` is sent again under its alias, and yet this alias
    is the one that the topic `c` gets. -/
theorem assigns_last_used :
    ∃ p a b c, V5.connectPacket true 0 [] none none none [] = .ok p ∧
      V5.publishPacket .two 0 [0x61] [[0x78]] 0 [] = .ok a ∧
      V5.publishPacket .two 0 [0x62] [[0x78]] 0 [] = .ok b ∧
      V5.publishPacket .two 0 [0x63] [[0x78]] 0 [] = .ok c ∧
      let calls : List (Nat × Op .two) := [(0, .setAutoMapTopicAliasSend true),
        (0, .send (.v5Connect p)), (0, .recv [0x20, 0x06, 0, 0, 3, 0x22, 0, 2]),
        (0, .send (.v5Publish a)), (0, .send (.v5Publish b)), (0, .send (.v5Publish a))]
      ¬ AssignsLeastRecent (Run.final next (start .client .two .v5) calls)
        (0, .send (.v5Publish c)) := by
  refine ⟨_, _, _, _, rfl, rfl, rfl, rfl, ?_⟩
  apply not_assigns_of_last 2 1 2 rfl
  · decide +kernel
  · decide +kernel
  · decide
  · decide
  · decide +kernel
  · decide
  · decide
  · decide +kernel
  · decide +kernel

end AliasRun

end AsyncMqtt
