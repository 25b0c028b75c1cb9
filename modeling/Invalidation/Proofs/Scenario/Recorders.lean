import Invalidation.Proofs.Run.Tally
import Invalidation.Proofs.Scenario.Runs

/-! What recorders take down. A recorder is a patcher that a script can read. It takes down every
    jump that it is asked for, answers at once and never fails; so what it has to tell is what it
    has been asked for, and outside of a jump that is being installed it is what has been installed.

        turn ──asks a recorder──▶ note ──advance──▶ installed and counted
          └────asks a patcher───▶ reaction … ─────▶ installed and counted, or failed -/

namespace Invalidation

/-- What a recorder is asked for along transitions, in their order. -/
def noted (name : String) (ts : List Transition) : List (Address × Address) :=
  ((jumps ts).filter fun j => j.patcher = .recorder name).map fun j => (j.source, j.destination)

variable {name : String} {ts us : List Transition} {t : Transition}

theorem noted_append (name : String) (ts us : List Transition) :
    noted name (ts ++ us) = noted name ts ++ noted name us := by
  rw [noted, jumps, List.filterMap_append, List.filter_append, List.map_append]
  rfl

theorem noted_of_quiet (quiet : ∀ u ∈ us, u.IsQuiet) : noted name us = [] := by
  have hjumps : jumps us = [] := List.filterMap_eq_nil_iff.mpr fun u hu => (quiet u hu).1
  rw [noted, hjumps]
  rfl

/-- Quiet transitions before and after another one add nothing to what a recorder is asked for by it. -/
theorem noted_among_quiet (before : ∀ u ∈ ts, u.IsQuiet) (behind : ∀ u ∈ us, u.IsQuiet) :
    noted name (ts ++ t :: us) = noted name [t] := by
  rw [← List.singleton_append, noted_append, noted_append, noted_of_quiet before, noted_of_quiet behind,
    List.nil_append, List.append_nil]

theorem noted_singleton (name : String) (t : Transition) :
    noted name [t] =
      t.jump?.elim [] fun j =>
      if j.patcher = .recorder name then [(j.source, j.destination)] else [] := by
  cases hj : t.jump? with
  | none => simp [noted, jumps, hj]
  | some j => by_cases hp : j.patcher = .recorder name <;> simp [noted, jumps, hj, hp]

namespace Scenario

namespace Session

variable {s : Session} {caller : Caller} {turn : Turn}

/-! ### What a turn changes in a script -/

theorem recorders_deliver (s : Session) (outcome : Outcome) (events : List Event) :
    (s.deliver outcome events).recorders = s.recorders := by
  unfold deliver
  cases s.stack <;> rfl

theorem world_deliver (s : Session) (outcome : Outcome) (events : List Event) :
    (s.deliver outcome events).world = s.world := by
  unfold deliver
  cases s.stack <;> rfl

theorem stack_deliver {outcome : Outcome} {events : List Event} {a : Activation}
    (ha : a ∈ (s.deliver outcome events).stack) :
    ∃ b ∈ s.stack, b.pending = a.pending ∧ b.script = a.script := by
  unfold deliver at ha
  cases hs : s.stack with
  | nil =>
    rw [hs] at ha
    cases ha
  | cons b rest =>
    rw [hs] at ha
    rcases List.mem_cons.mp ha with rfl | ha
    · exact ⟨b, List.mem_cons_self, rfl, rfl⟩
    · exact ⟨a, List.mem_cons_of_mem _ ha, rfl, rfl⟩

/-- The end of a step leaves the recorders, the calls that wait and the linkage as they are. -/
theorem close_eq (s : Session) (closing : Closing) :
    (s.close closing).1.recorders = s.recorders ∧ (s.close closing).1.stack = s.stack ∧
      (s.close closing).1.world.linkage = s.world.linkage := by
  cases closing with
  | nothing | nameRuntime | nameResolved => exact ⟨rfl, rfl, rfl⟩
  | reportSet i copy =>
    cases hfat : s.world.fatSet? i with
    | none => simp only [close, hfat, and_self]
    | some t =>
      cases copy with
      | none => simp only [close, hfat, and_self]
      | some name =>
        simp only [close, hfat, true_and]
        exact World.linkage_newHandle s.world _ s.fresh

theorem closeFailed_eq (s : Session) (failure : LinkFailure) (closing : Closing) :
    (s.closeFailed failure closing).1.recorders = s.recorders ∧
      (s.closeFailed failure closing).1.stack = s.stack ∧
      (s.closeFailed failure closing).1.world.linkage = s.world.linkage := by
  cases closing with
  | nothing | reportSet | nameRuntime => exact ⟨rfl, rfl, rfl⟩
  | nameResolved name w => exact ⟨rfl, rfl, (World.plain_dropWatchpoint w).same⟩

/-- What a step makes of a turn does not show in the linkage. -/
theorem linkage_take (s : Session) (caller : Caller) (turn : Turn) :
    (s.take caller turn).world.linkage = turn.world.linkage := by
  unfold take
  cases turn.next with
  | returned => exact (congrArg World.linkage (world_deliver _ _ _)).trans (close_eq _ _).2.2
  | failed failure =>
    exact (congrArg World.linkage (world_deliver _ _ _)).trans (closeFailed_eq _ _ _).2.2
  | panicked fault => exact congrArg World.linkage (world_deliver _ _ _)
  | waiting request pending =>
    obtain ⟨_, _, _, hreceive⟩ := receive_eq { s with world := turn.world } caller.buffer request
    exact congrArg (fun s => s.world.linkage) hreceive

/-- A recorder takes down what it is asked for. -/
theorem recorders_take (s : Session) (caller : Caller) (turn : Turn) (name : String) :
    (s.take caller turn).recorders.get? name =
      match turn.next with
      | .waiting (.patch (.recorder other) source destination) _ =>
        (s.recorders.modify other (· ++ [(source, destination)])).get? name
      | _ => s.recorders.get? name := by
  unfold take
  cases turn.next with
  | returned => exact congrArg (·.get? name) ((recorders_deliver _ _ _).trans (close_eq _ _).1)
  | failed failure =>
    exact congrArg (·.get? name) ((recorders_deliver _ _ _).trans (closeFailed_eq _ _ _).1)
  | panicked fault => exact congrArg (·.get? name) (recorders_deliver _ _ _)
  | waiting request pending =>
    cases request with
    | patch patcher source destination => cases patcher <;> rfl
    | locate label => cases caller.buffer <;> rfl

/-- A call that waits for a recorder has no reaction to wait for. -/
theorem stack_take {a : Activation} (ha : a ∈ (s.take caller turn).stack) :
    (∃ b ∈ s.stack, b.pending = a.pending ∧ b.script = a.script) ∨
      ∃ request, turn.next = .waiting request a.pending ∧
        ∀ name source destination, request = .patch (.recorder name) source destination →
        a.script = [] := by
  unfold take at ha
  cases hn : turn.next with
  | returned =>
    simp only [hn] at ha
    exact Or.inl ((close_eq { s with world := turn.world } caller.closing).2.1 ▸ stack_deliver ha)
  | failed failure =>
    simp only [hn] at ha
    exact Or.inl ((closeFailed_eq { s with world := turn.world } failure caller.closing).2.1 ▸
      stack_deliver ha)
  | panicked fault =>
    simp only [hn] at ha
    exact Or.inl (stack_deliver (s := { s with world := turn.world }) ha)
  | waiting request pending =>
    simp only [hn] at ha
    obtain ⟨_, _, _, hreceive⟩ := receive_eq { s with world := turn.world } caller.buffer request
    have hstack := congrArg Session.stack hreceive
    rcases List.mem_cons.mp ha with rfl | ha
    · refine Or.inr ⟨request, rfl, ?_⟩
      rintro name source destination rfl
      rfl
    · exact Or.inl ⟨a, hstack ▸ ha, rfl, rfl⟩

/-- A recorder that is there stays there. -/
theorem contains_take (there : s.recorders.contains name = true) :
    (s.take caller turn).recorders.contains name = true := by
  rw [Store.contains, recorders_take]
  split
  · rw [Store.get?_modify]
    split
    · rw [Option.isSome_map]
      exact there
    · exact there
  · exact there

/-! ### What the recorders of a script have to tell -/

/-- The transitions that have led a script on so far, and what its recorders have to tell of them. -/
structure Chronicle (s : Session) (ts : List Transition) : Prop where
  run : Run {} ts s.moment
  proper : s.Proper
  /-- A recorder has taken down what it was asked for. -/
  notes : ∀ name, (s.recorders.get? name).getD [] = noted name ts
  /-- The recorder that a context installs its jumps by is there. -/
  known : ∀ c x name, s.world.contexts.get? c = some x → x.patcher = .recorder name →
    s.recorders.contains name = true
  /-- No reaction runs while a recorder installs a jump. -/
  prompt : ∀ a ∈ s.stack, ∀ w name, a.pending.patching? = some w →
    s.world.installer? w = some (.recorder name) → a.script = []
  /-- No recorder has failed. -/
  sure : ∀ t ∈ ts, ∀ w name, t.failing? = some w → t.before.world.installer? w ≠ some (.recorder name)

theorem chronicle_empty (p : Script) : p.session.Chronicle [] where
  run := .nil _
  proper := proper_empty p
  notes _ := rfl
  known _ _ _ h := by cases h
  prompt _ ha := by cases ha
  sure _ ht := by cases ht

/-- Whatever has happened in the one script, the other has come to from there. -/
def LeadsTo (s s' : Session) : Prop := ∀ ts, s.Chronicle ts → ∃ us, s'.Chronicle (ts ++ us)

namespace LeadsTo

variable {s' s'' : Session}

theorem refl (s : Session) : s.LeadsTo s := fun ts h => ⟨[], by rwa [List.append_nil]⟩

theorem trans (h : s.LeadsTo s') (h' : s'.LeadsTo s'') : s.LeadsTo s'' := by
  intro ts hs
  obtain ⟨us, hs'⟩ := h ts hs
  obtain ⟨vs, hs''⟩ := h' _ hs'
  exact ⟨us ++ vs, by rwa [← List.append_assoc]⟩

end LeadsTo

namespace Chronicle

variable {s' : Session}

theorem linked (h : s.Chronicle ts) : s.moment.Linked := h.run.linked Moment.linked_empty

/-- A script goes on by transitions: what has been noted before stays, and so does who was there. -/
theorem go (h : s.Chronicle ts) (run : Run s.moment us s'.moment) (proper : s'.Proper)
    (notes : ∀ name, (s'.recorders.get? name).getD [] = (s.recorders.get? name).getD [] ++
        noted name us)
    (known : ∀ c x name, s'.world.contexts.get? c = some x → x.patcher = .recorder name →
      s'.recorders.contains name = true)
    (prompt : ∀ a ∈ s'.stack, (∃ b ∈ s.stack, b.pending = a.pending ∧ b.script = a.script) ∨
      ∀ w name, a.pending.patching? = some w → s'.world.installer? w = some (.recorder name) →
      a.script = [])
    (sure : ∀ t ∈ us, ∀ w name, t.failing? = some w →
      t.before.world.installer? w ≠ some (.recorder name)) : s'.Chronicle (ts ++ us) where
  run := h.run.append run
  proper := proper
  notes name := by rw [notes, noted_append, h.notes]
  known := known
  prompt a ha w name hw hi := by
    rcases prompt a ha with ⟨b, hb, hpending, hscript⟩ | hprompt
    · have hmem : (⟨b.pending, b.caller.loan⟩ : Waiting) ∈ s.moment.stack := List.mem_map_of_mem hb
      obtain ⟨x, hx⟩ := h.linked.known _ hmem
      rw [← hpending] at hw
      obtain rfl := Pending.watchpoint_of_patching? hw
      have hsame : s'.world.installer? b.pending.watchpoint = s.world.installer? b.pending.watchpoint :=
        run.installer?_eq h.linked hx
      exact hscript ▸ h.prompt b hb _ name hw (hsame ▸ hi)
    · exact hprompt w name hw hi
  sure t ht := (List.mem_append.mp ht).elim (h.sure t) (sure t)

/-- Nothing happens in the library, and the recorders stay as they are. -/
theorem same (h : s.Chronicle ts) (moment : s'.moment = s.moment) (proper : s'.Proper)
    (recorders : s'.recorders = s.recorders)
    (stack : ∀ a ∈ s'.stack, ∃ b ∈ s.stack, b.pending = a.pending ∧ b.script = a.script) :
    s'.Chronicle ts := by
  have hrun : Run s.moment [] s'.moment := moment ▸ .nil _
  have hworld : s'.world = s.world := congrArg Moment.world moment
  have hgo := h.go hrun proper (fun name => by rw [recorders]; exact (List.append_nil _).symm)
    (fun c x name hx hp => by rw [recorders]; exact h.known c x name (hworld ▸ hx) hp)
    (fun a ha => Or.inl (stack a ha)) fun _ ht => by cases ht
  rwa [List.append_nil] at hgo

end Chronicle

/-- Nobody notices what is reported. -/
theorem leadsTo_deliver (s : Session) (outcome : Outcome) (events : List Event) :
    s.LeadsTo (s.deliver outcome events) := by
  refine fun ts h => ⟨[], ?_⟩
  rw [List.append_nil]
  exact h.same (moment_deliver s outcome events) (proper_deliver h.proper outcome events)
    (recorders_deliver s outcome events) fun a ha => stack_deliver ha

/-- The patcher is there, if it is a recorder. -/
def Knows (s : Session) (p : PatcherId) : Prop :=
  ∀ name, p = .recorder name → s.recorders.contains name = true

/-- What a recorder takes down of a turn is what it is asked for by the transition. -/
theorem notes_take (ht : t.move.turn = turn)
    (there : ∀ j ∈ t.jump?, s.Knows j.patcher) (name : String) :
    ((s.take caller turn).recorders.get? name).getD [] =
      (s.recorders.get? name).getD [] ++ noted name [t] := by
  rw [recorders_take, noted_singleton]
  split
  · next other source destination pending hn =>
    have hj := Transition.jump?_of_next (ht ▸ hn)
    obtain ⟨notes, hnotes⟩ := Option.isSome_iff_exists.mp (there _ hj other rfl)
    rw [hj, Option.elim_some, Store.get?_modify]
    by_cases ho : name = other
    · subst ho
      simp [hnotes]
    · simp [Ne.symm ho]
  · next hn =>
    cases hj : t.jump? with
    | none => exact (List.append_nil _).symm
    | some j =>
      have hother : j.patcher ≠ .recorder name := by
        intro hp
        obtain ⟨pending, hnext⟩ := Transition.next_of_jump? hj
        exact hn name j.source j.destination pending (ht ▸ hp ▸ hnext)
      rw [Option.elim_some, if_neg hother, List.append_nil]

/-- A turn that a transition takes for a caller, and what the step makes of it, as the recorders
    tell it. -/
theorem chronicle_take {s' : Session} {pre : List Transition} (h : s.Chronicle ts)
    (start : Run s.moment pre t.before) (quiet : ∀ u ∈ pre, u.IsQuiet)
    (ht : t.move = ⟨turn, caller.loan, s'.moment.stack⟩)
    (order : Orderly s'.Names s'.fresh s'.waits turn.world.held?) (fits : s'.Fits caller turn)
    (recorders : s'.recorders = s.recorders) (stack : s'.stack ⊆ s.stack)
    (known : ∀ c x, t.before.world.contexts.get? c = some x → s.Knows x.patcher)
    (opens : ∀ c p, t.action = .call c → c.patcher? = some p → s.Knows p)
    (sure : ∀ w name, t.failing? = some w → t.before.world.installer? w ≠ some (.recorder name)) :
    ∃ us, (s'.take caller turn).Chronicle (ts ++ us) := by
  obtain ⟨⟨post, hpost, hquiet⟩, hproper⟩ := settles_take order fits ht
  have hlinked : t.before.Linked := start.linked h.linked
  have hlinkage := linkage_take s' caller turn
  have hturn : t.move.turn = turn := congrArg Move.turn ht
  have hworld : t.after.world = turn.world := congrArg Turn.world hturn
  have hcontexts : (s'.take caller turn).world.contexts = turn.world.contexts :=
    congrArg Linkage.contexts hlinkage
  have hinstaller : (s'.take caller turn).world.installer? = turn.world.installer? :=
    World.installer?_congr hlinkage
  have hknown : ∀ c x, turn.world.contexts.get? c = some x → s'.Knows x.patcher := by
    intro c x hx name hp
    rw [recorders]
    rcases Transition.patcher_before hlinked (hworld.symm ▸ hx) with ⟨y, hy, hyp⟩ | ⟨call, ha, hc⟩
    · exact known c y hy name (hyp.trans hp)
    · exact opens call _ ha hc name hp
  have hinstalls : ∀ j ∈ t.jump?, turn.world.installer? j.watchpoint = some j.patcher := fun j hj =>
    hworld ▸ Transition.installer?_of_jump hlinked hj
  have hthere : ∀ j ∈ t.jump?, s'.Knows j.patcher := by
    intro j hj
    obtain ⟨v, -, hv⟩ := Option.bind_eq_some_iff.mp (hinstalls j hj)
    obtain ⟨x, hx, hp⟩ := Option.map_eq_some_iff.mp hv
    exact hp ▸ hknown _ x hx
  refine ⟨pre ++ t :: post, h.go (start.append (.cons rfl hpost)) hproper (fun name => ?_)
    (fun c x name hx hp => ?_) (fun a ha => ?_) fun u hu w name hw => ?_⟩
  · rw [noted_among_quiet quiet hquiet, notes_take hturn hthere, recorders]
  · exact contains_take (hknown c x (hcontexts ▸ hx) name hp)
  · rcases stack_take ha with ⟨b, hb, hsame⟩ | ⟨request, hn, hscript⟩
    · exact Or.inl ⟨b, stack hb, hsame⟩
    · -- the call that comes to wait waits for the patcher of its own watchpoint
      refine Or.inr fun w name hw hi => ?_
      obtain ⟨q, source, destination, hq, rfl⟩ := Transition.request_of_patching hlinked (hturn ▸ hn) hw
      have hpatcher : q = .recorder name := Option.some.inj ((hworld ▸ hq).symm.trans (hinstaller ▸ hi))
      exact hscript name source destination (congrArg (Request.patch · source destination) hpatcher)
  · rcases List.mem_append.mp hu with hu | hu
    · cases (quiet u hu).2.symm.trans hw
    · rcases List.mem_cons.mp hu with rfl | hu
      · exact sure w name hw
      · cases (hquiet u hu).2.symm.trans hw

/-! ### Steps -/

theorem knows_of_findPatcher {patcher : PatcherName} {p : PatcherId}
    (h : s.findPatcher patcher = .ok p) : s.Knows p := by
  cases patcher with
  | scripted n =>
    obtain ⟨_, -, h⟩ := exists_of_bind_eq_ok h
    obtain rfl := Except.ok.inj h
    exact fun _ he => by cases he
  | recorder n =>
    obtain ⟨_, hn, h⟩ := exists_of_bind_eq_ok h
    obtain rfl := Except.ok.inj h
    intro name he
    obtain rfl := PatcherId.recorder.inj he
    exact Option.isSome_of_eq_some (get?_of_find hn)

/-- What a step comes to, as far as recorders and patchers go. -/
inductive Prepares (s : Session) : Action → Prop where
  | result {s' : Session} {r : Result} (world : s'.world = s.world) (stack : s'.stack = s.stack)
      (recorders : s'.recorders = s.recorders) : s.Prepares (.result s' r)
  | recorder {s' : Session} {r : Result} {name : String} (new : s.recorders.contains name = false)
      (world : s'.world = s.world) (stack : s'.stack = s.stack)
      (recorders : s'.recorders = s.recorders.put name []) : s.Prepares (.result s' r)
  | call {s' : Session} {caller : Caller} {c : Call} (world : s'.world = s.world)
      (stack : s'.stack = s.stack) (recorders : s'.recorders = s.recorders)
      (knows : ∀ p, c.patcher? = some p → s.Knows p) : s.Prepares (.call s' caller c)
  /-- A watchpoint is made first, to be resolved by the call. -/
  | resolved {s' : Session} {caller : Caller} {w : WatchpointId} {p : PatcherId}
    {source destination : Label}
      (world : s'.world = (s.world.begin (.createAlone w p source destination)).world)
      (stack : s'.stack = s.stack) (recorders : s'.recorders = s.recorders) (knows : s.Knows p) :
      s.Prepares (.call s' caller (.resolve w))

theorem prepares_action {step : Step} {a : Action} (ha : s.action step = .ok a) : s.Prepares a := by
  cases step with
  | patcher | buffer | fixed =>
    obtain ⟨_, -, ha⟩ := exists_of_bind_eq_ok ha
    obtain rfl := Except.ok.inj ha
    exact .result rfl rfl rfl
  | recorder name =>
    obtain ⟨_, hnew, ha⟩ := exists_of_bind_eq_ok ha
    obtain rfl := Except.ok.inj ha
    have hunused : s.recorders.contains name = false := by
      unfold unused at hnew
      split at hnew
      · cases hnew
      · next hn => exact Bool.eq_false_iff.mpr hn
    exact .recorder hunused rfl rfl rfl
  | recorderInfo | recorderDebug | runtimeStats | runtimeConfig | runtimeDebug | watchpointInfo
  | watchpointDebug | setInfo | setDebug | slotInfo | slotDebug | runtimeDrop =>
    obtain ⟨_, -, ha⟩ := exists_of_bind_eq_ok ha
    obtain rfl := Except.ok.inj ha
    exact .result rfl rfl rfl
  | setSame =>
    obtain ⟨_, -, ha⟩ := exists_of_bind_eq_ok ha
    obtain ⟨_, -, ha⟩ := exists_of_bind_eq_ok ha
    obtain rfl := Except.ok.inj ha
    exact .result rfl rfl rfl
  | address | modes =>
    obtain rfl := Except.ok.inj ha
    exact .result rfl rfl rfl
  | resolvedWatchpoint =>
    obtain ⟨_, -, ha⟩ := exists_of_bind_eq_ok ha
    obtain ⟨p, hp, ha⟩ := exists_of_bind_eq_ok ha
    obtain rfl := Except.ok.inj ha
    exact .resolved rfl rfl rfl (knows_of_findPatcher hp)
  | runtime =>
    obtain ⟨_, -, ha⟩ := exists_of_bind_eq_ok ha
    obtain ⟨p, hp, ha⟩ := exists_of_bind_eq_ok ha
    obtain ⟨_, -, ha⟩ := exists_of_bind_eq_ok ha
    obtain rfl := Except.ok.inj ha
    exact .call rfl rfl rfl fun q hq => Option.some.inj hq ▸ knows_of_findPatcher hp
  | watchpoint name source destination home =>
    obtain ⟨_, -, ha⟩ := exists_of_bind_eq_ok ha
    cases home with
    | runtime =>
      obtain ⟨r, -, ha⟩ := exists_of_bind_eq_ok ha
      obtain rfl := Except.ok.inj ha
      exact .call rfl rfl rfl fun _ hq => by cases hq
    | alone =>
      obtain ⟨p, hp, ha⟩ := exists_of_bind_eq_ok ha
      obtain rfl := Except.ok.inj ha
      exact .call rfl rfl rfl fun q hq => Option.some.inj hq ▸ knows_of_findPatcher hp
  | set | setClone | slot | resolve | resolveFixed | add | watchpointDrop | setDrop =>
    obtain ⟨_, -, ha⟩ := exists_of_bind_eq_ok ha
    obtain ⟨_, -, ha⟩ := exists_of_bind_eq_ok ha
    obtain rfl := Except.ok.inj ha
    exact .call rfl rfl rfl fun _ hq => by cases hq
  | fire | startWatching | notifyWrite | fireAll | slotDrop | slotStartWatching | slotNotifyWrite
  | slotFreeFat =>
    obtain ⟨_, -, ha⟩ := exists_of_bind_eq_ok ha
    obtain rfl := Except.ok.inj ha
    exact .call rfl rfl rfl fun _ hq => by cases hq
  | register | slotAdd =>
    obtain ⟨_, -, ha⟩ := exists_of_bind_eq_ok ha
    obtain ⟨_, -, ha⟩ := exists_of_bind_eq_ok ha
    obtain rfl := Except.ok.inj ha
    exact .call rfl rfl rfl fun _ hq => by cases hq
  | slotInflate slot copy | slotPromote slot copy =>
    obtain ⟨_, -, ha⟩ := exists_of_bind_eq_ok ha
    cases copy with
    | none =>
      obtain rfl := Except.ok.inj ha
      exact .call rfl rfl rfl fun _ hq => by cases hq
    | some k =>
      obtain ⟨_, -, ha⟩ := exists_of_bind_eq_ok ha
      obtain rfl := Except.ok.inj ha
      exact .call rfl rfl rfl fun _ hq => by cases hq
  | panic message => cases ha

/-! ### Everything that a script does -/

/-- A new recorder has nothing to tell, and has not been asked for anything. -/
theorem Chronicle.enter {s' : Session} (h : s.Chronicle ts) (moment : s'.moment = s.moment)
    (proper : s'.Proper) (stack : s'.stack = s.stack) (new : s.recorders.contains name = false)
    (recorders : s'.recorders = s.recorders.put name []) : s'.Chronicle ts := by
  have hrun : Run s.moment [] s'.moment := moment ▸ .nil _
  have hworld : s'.world = s.world := congrArg Moment.world moment
  have hnone : s.recorders.get? name = none :=
    Option.not_isSome_iff_eq_none.mp (Bool.eq_false_iff.mp new)
  have hgo := h.go hrun proper (fun other => ?_) (fun c x other hx hp => ?_)
    (fun a ha => Or.inl ⟨a, stack ▸ ha, rfl, rfl⟩) fun _ ht => by cases ht
  · rwa [List.append_nil] at hgo
  · rw [recorders, Store.get?_put]
    split
    · next he =>
      subst he
      rw [hnone]
      rfl
    · exact (List.append_nil _).symm
  · rw [recorders, Store.contains, Store.get?_put]
    split
    · rfl
    · exact h.known c x other (hworld ▸ hx) hp

theorem leadsTo_perform (s : Session) (step : Step) : s.LeadsTo (s.perform step) := by
  intro ts h
  have known : ∀ c x, s.world.contexts.get? c = some x → s.Knows x.patcher := fun c x hx name hp =>
    h.known c x name hx hp
  unfold perform
  cases ha : s.action step with
  | error trouble => exact leadsTo_deliver s _ _ ts h
  | ok a =>
    have hprepares := prepares_action ha
    cases leads_action h.proper ha with
    | result proper same =>
      cases hprepares with
      | result world stack recorders =>
        refine leadsTo_deliver _ _ _ ts (h.same same proper recorders fun a ha => ?_)
        exact ⟨a, stack ▸ ha, rfl, rfl⟩
      | recorder new world stack recorders =>
        exact leadsTo_deliver _ _ _ ts (h.enter same proper stack new recorders)
    | @call s' us caller c run quiet permitted order fits =>
      have hsteady : ∀ w name, (s'.moment.calling c permitted).failing? = some w →
          s'.world.installer? w ≠ some (.recorder name) := fun _ _ hf => by cases hf
      cases hprepares with
      | call world stack recorders knows =>
        have hmoment : s'.moment = s.moment := by rw [moment, world, stack]; rfl
        have hrun : Run s.moment [] (s'.moment.calling c permitted).before := hmoment ▸ .nil _
        refine chronicle_take h hrun Transition.quiet_nil rfl order fits recorders
          (stack ▸ List.Subset.refl _)
          (fun c x hx => known c x (world ▸ hx)) (fun c' p hc hp => ?_) hsteady
        obtain rfl := Invalidation.Action.call.inj hc
        exact knows p hp
      | @resolved _ _ w p source destination world stack recorders knows =>
        refine chronicle_take (t := s'.moment.calling _ permitted) h run quiet rfl order fits recorders
          (stack ▸ List.Subset.refl _) (fun c x hx => ?_) (fun c' p hc hp => ?_) hsteady
        · have hlinkage := (World.linkage_begin s.world (.createAlone w p source destination)).1
          have hcontexts := congrArg (fun l => l.contexts.get? c) hlinkage
          have hx : (s'.world).contexts.get? c = some x := hx
          rw [world] at hx
          rcases Linkage.patcher_before (d := .makesAlone w p source destination)
            (hcontexts.symm.trans hx) with
            ⟨y, hy, hyp⟩ | ⟨_, _, he⟩ | ⟨_, _, _, he⟩
          · exact hyp ▸ known c y hy
          · cases he
          · cases he
            exact knows
        · obtain rfl := Invalidation.Action.call.inj hc
          cases hp

/-! ### Going on with a call that waits -/

variable {a : Activation} {below : List Activation}

/-- The innermost waiting call goes on, or fails where no recorder is at work. -/
theorem leadsTo_resume {action : Invalidation.Action} (resumes : s.Resumes a below action turn)
    (sure : ∀ message, action = .failed message → ∀ w name, a.pending.patching? = some w →
      s.world.installer? w ≠ some (.recorder name)) :
    s.LeadsTo (take { s with stack := below } a.caller turn) := by
  intro ts h
  refine chronicle_take (t := ⟨s.moment, action, _, resumes.possible⟩) h (.nil _)
    Transition.quiet_nil rfl (resumes.same ▸ order_below (s := s) h.proper resumes.top)
    (fits_of_top h.proper resumes.top resumes.same) rfl
    (resumes.top ▸ List.subset_cons_self _ _) (fun c x hx name hp => h.known c x name hx hp)
    (fun c p hc _ => absurd hc (resumes.answers c)) fun w name hw => ?_
  cases action with
  | failed message =>
    simp only [Transition.failing?, stack_moment resumes.top] at hw
    exact sure message rfl w name hw
  | call | patched | located => cases hw

/-- Whatever a script does next, its recorders tell it. -/
theorem leadsTo_advance (s : Session) : s.LeadsTo s.advance := by
  intro ts h
  -- a recorder does not react, so whoever reacts is not one
  have busy : ∀ {a below step rest}, s.stack = a :: below → a.script = step :: rest →
      ∀ w name, a.pending.patching? = some w → s.world.installer? w ≠ some (.recorder name) := by
    intro a below step rest top next w name hw hi
    have hmem : a ∈ s.stack := top ▸ List.mem_cons_self
    cases next.symm.trans (h.prompt a hmem w name hw hi)
  have hnext := proceeds_advance s
  generalize s.advance = s' at hnext
  cases hnext with
  | finished => exact LeadsTo.refl s ts h
  | @step step rest top next =>
    have hrest : Chronicle { s with program := rest } ts :=
      h.same rfl h.proper rfl fun a ha => ⟨a, ha, rfl, rfl⟩
    exact leadsTo_perform _ step ts hrest
  | answer top =>
    obtain ⟨_, _, he, hresumes, hsure⟩ := resumes_answer top
    refine he ▸ leadsTo_resume hresumes (fun message ha w name hw => ?_) ts h
    rcases hsure with hnone | hsure
    · cases hnone.symm.trans hw
    · exact absurd ha (hsure message)
  | fail top next => exact leadsTo_resume (resumes_fail top _) (fun _ _ => busy top next) ts h
  | @react a below step rest top next =>
    refine leadsTo_perform _ step ts ⟨moment_react top rest ▸ h.run,
      proper_react h.proper top rest, h.notes, h.known, fun b hb w name hw hi => ?_, h.sure⟩
    rcases List.mem_cons.mp hb with rfl | hb
    · exact absurd hi (busy top next w name hw)
    · exact h.prompt b (top ▸ List.mem_cons_of_mem _ hb) w name hw hi

end Session

end Scenario

end Invalidation
