import DynamicRPC.CallVerdict
import DynamicRPC.FnLifecycle

namespace DynamicRPC
open Outcome Runs

namespace FnServer
variable {names : CString → NameState} {s s' : FnServer} {r : Nat}

/-- Every record has been released once or waits under its name, and nothing is logged of later ones. -/
structure Accounted (s : FnServer) : Prop where
  each : ∀ r, 0 < r → r < s.records.next → s.Settled r ∨ s.Held r ∧ ∃ fnName, s.functions.lookup fnName = some r
  fresh : ∀ r, s.records.next ≤ r → s.released.filter (·.1 = r) = [] ∧ s.freeCalls.filter (·.record = r) = []

/-- A live record that no name leads to. -/
def Leaks (s : FnServer) : Prop := ∃ r, s.Held r ∧ ∀ fnName, s.functions.lookup fnName ≠ some r

/-- Every record that was ever registered was released exactly once, with its
callback when both its storage and its callback are set. -/
def ReleasedOnce (s : FnServer) : Prop :=
  ∀ r, 0 < r → r < s.records.next → ∃ record, s.released.filter (·.1 = r) = [(r, record)] ∧
    s.freeCalls.filter (·.record = r) = record.freeCalls r

theorem start_accounted : start.Accounted where
  each := fun _ positive below => absurd below (Nat.not_lt.mpr positive)
  fresh := fun _ _ => ⟨rfl, rfl⟩

theorem Held.within (held : s.Held r) : 0 < r ∧ r < s.records.next := by
  obtain ⟨record, cell⟩ := Option.isSome_iff_exists.mp held.live
  exact ⟨Nat.pos_of_ne_zero (Memory.ne_zero_of_live cell), Memory.lt_of_live cell⟩

/-- A live record is still held. -/
theorem Accounted.held (accounted : s.Accounted) (live : (s.records.cells r).isSome) : s.Held r := by
  obtain ⟨record, cell⟩ := Option.isSome_iff_exists.mp live
  obtain settled | ⟨held, -⟩ :=
    accounted.each r (Nat.pos_of_ne_zero (Memory.ne_zero_of_live cell)) (Memory.lt_of_live cell)
  · rw [settled.gone] at cell
    cases cell
  · exact held

/-- Registering under a name that is not registered. -/
theorem Accounted.register (accounted : s.Accounted) (tracks : s.Tracks names) {fnName : CString}
    {fnInfo : DrpcFunction} {fnstorage : Nat} (free : names fnName ≠ .registered)
    (ran : FnCall.run s (.register fnName fnInfo fnstorage) = .ok s') : s'.Accounted := by
  obtain ⟨other, again, -, lookup, next, cells, released, freeCalls⟩ := tracks.register fnName fnInfo fnstorage
  rw [ran] at again
  cases again
  have untouched (r : Nat) (below : r < s.records.next) : Untouched s s' r :=
    ⟨by rw [cells, Function.update_of_ne (Nat.ne_of_lt below)], by rw [released], by rw [freeCalls]⟩
  have fresh := accounted.fresh s.records.next (Nat.le_refl _)
  refine ⟨fun r positive below => ?_, fun r beyond => ?_⟩
  · by_cases new : r = s.records.next
    · subst new
      refine .inr ⟨⟨?_, by rw [released, fresh.1], by rw [freeCalls, fresh.2]⟩, fnName, ?_⟩
      · rw [cells, Function.update_self]
        rfl
      · rw [lookup, Function.update_self]
    · have old : r < s.records.next := by omega
      obtain settled | ⟨held, name, found⟩ := accounted.each r positive old
      · exact .inl ((untouched r old).settled settled)
      · refine .inr ⟨(untouched r old).held held, name, ?_⟩
        have different : name ≠ fnName := by
          rintro rfl
          obtain ⟨registered, -⟩ | ⟨-, gone⟩ := tracks.found_cases found
          · exact free registered
          · have live := held.live
            rw [gone] at live
            cases live
        rw [lookup, Function.update_of_ne different, found]
  · rw [released, freeCalls]
    exact accounted.fresh r (by omega)

/-- A registered name that is registered again leaves its record behind. -/
theorem Accounted.overwritten (accounted : s.Accounted) (tracks : s.Tracks names) {fnName : CString}
    {fnInfo : DrpcFunction} {fnstorage : Nat} (bound : names fnName = .registered)
    (ran : FnCall.run s (.register fnName fnInfo fnstorage) = .ok s') : s'.Leaks := by
  obtain ⟨other, again, -, lookup, next, cells, released, freeCalls⟩ := tracks.register fnName fnInfo fnstorage
  rw [ran] at again
  cases again
  have before := tracks.describes fnName
  rw [bound] at before
  obtain ⟨r, found, live⟩ := before
  have below := tracks.below fnName r found
  refine ⟨r, Untouched.held ⟨?_, by rw [released], by rw [freeCalls]⟩ (accounted.held live), fun name => ?_⟩
  · rw [cells, Function.update_of_ne (Nat.ne_of_lt below)]
  · rw [lookup]
    by_cases same : name = fnName
    · rw [same, Function.update_self]
      intro taken
      cases taken
      exact Nat.lt_irrefl _ below
    · rw [Function.update_of_ne same]
      exact fun shared => same (tracks.injective name fnName r shared found)

/-- Releasing the record of a name. -/
theorem Accounted.release (accounted : s.Accounted) {ret : Int} (live : (s.records.cells r).isSome)
    (freed : drpcFnFree s (some r) = .ok (s', ret)) : s'.Accounted := by
  obtain ⟨-, functions, -, next, settles, -, frame⟩ := drpcFnFree_inv freed
  refine ⟨fun other positive below => ?_, fun other beyond => ?_⟩
  · rw [next] at below
    obtain settled | ⟨held, name, found⟩ := accounted.each other positive below
    · refine .inl ((frame other ?_).settled settled)
      rintro rfl
      rw [settled.gone] at live
      cases live
    · by_cases same : other = r
      · rw [same] at held ⊢
        exact .inl (settles held)
      · exact .inr ⟨(frame other same).held held, name, by rw [functions, found]⟩
  · rw [next] at beyond
    obtain ⟨record, cell⟩ := Option.isSome_iff_exists.mp live
    have untouched := frame other (Nat.ne_of_gt (Nat.lt_of_lt_of_le (Memory.lt_of_live cell) beyond))
    rw [untouched.released, untouched.freeCalls]
    exact accounted.fresh other beyond

/-- An allowed call keeps the books. -/
theorem Accounted.step (accounted : s.Accounted) (tracks : s.Tracks names) {call : FnCall} (allowed : call.Allowed names)
    (ran : call.run s = .ok s') : s'.Accounted := by
  obtain ⟨fnName, fnInfo, fnstorage, rfl⟩ | ⟨fnName, r, released, rfl, registered, found, freed, rfl⟩ |
    ⟨-, functions, next, cells, released, freeCalls, -⟩ := tracks.run_cases ran
  · exact accounted.register tracks allowed ran
  · obtain ⟨-, live⟩ | ⟨unregistered, -⟩ := tracks.found_cases found
    swap
    · rw [registered] at unregistered
      cases unregistered
    have held := accounted.release live freed
    exact ⟨fun other positive below => (held.each other positive below).imp (fun settled => ⟨settled.gone, settled.once⟩)
      fun ⟨held, named⟩ => ⟨⟨held.live, held.unreleased, held.silent⟩, named⟩, held.fresh⟩
  · refine ⟨fun r positive below => ?_, fun r beyond => ?_⟩
    · rw [next] at below
      refine (accounted.each r positive below).imp (fun settled => ⟨?_, ?_⟩) fun ⟨held, name, found⟩ => ⟨⟨?_, ?_, ?_⟩, name, ?_⟩
      · have same := cells r
        rw [settled.gone] at same
        simpa using same
      · rw [released, freeCalls]
        exact settled.once
      · rw [cells]
        exact held.live
      · rw [released, held.unreleased]
      · rw [freeCalls, held.silent]
      · rw [functions, found]
    · rw [released, freeCalls]
      rw [next] at beyond
      exact accounted.fresh r beyond

/-- A record that no name leads to stays out of reach. -/
theorem Leaks.step (leaks : s.Leaks) (tracks : s.Tracks names) {call : FnCall} (ran : call.run s = .ok s') :
    s'.Leaks := by
  obtain ⟨r, held, lost⟩ := leaks
  obtain ⟨fnName, fnInfo, fnstorage, rfl⟩ | ⟨fnName, other, released, rfl, registered, found, freed, rfl⟩ |
    ⟨-, functions, next, cells, released, freeCalls, -⟩ := tracks.run_cases ran
  · obtain ⟨other, again, -, lookup, next, cells, released, freeCalls⟩ := tracks.register fnName fnInfo fnstorage
    rw [ran] at again
    cases again
    have different := Nat.ne_of_lt held.within.2
    refine ⟨r, Untouched.held ⟨?_, by rw [released], by rw [freeCalls]⟩ held, fun name => ?_⟩
    · rw [cells, Function.update_of_ne different]
    · rw [lookup]
      by_cases same : name = fnName
      · rw [same, Function.update_self]
        exact fun taken => different (Option.some.inj taken).symm
      · rw [Function.update_of_ne same]
        exact lost name
  · obtain ⟨-, functions, -, -, -, -, frame⟩ := drpcFnFree_inv freed
    have different : r ≠ other := by
      rintro rfl
      exact lost fnName found
    have kept := (frame r different).held held
    refine ⟨r, ⟨kept.live, kept.unreleased, kept.silent⟩, fun name => ?_⟩
    show released.functions.lookup name ≠ some r
    rw [functions]
    exact lost name
  · refine ⟨r, ⟨?_, by rw [released, held.unreleased], by rw [freeCalls, held.silent]⟩, fun name => ?_⟩
    · rw [cells]
      exact held.live
    · rw [functions]
      exact lost name

theorem Tracks.mem_sweep (tracks : s.Tracks names) :
    r ∈ sweep s.functions.body ↔ ∃ fnName, s.functions.lookup fnName = some r := by
  unfold sweep
  rw [List.mem_map]
  constructor
  · rintro ⟨⟨fnName, _⟩, member, rfl⟩
    exact ⟨fnName, tracks.table.wf.lookup_eq_some.mpr member⟩
  · rintro ⟨fnName, found⟩
    exact ⟨(fnName, r), tracks.table.wf.lookup_eq_some.mp found, rfl⟩

theorem Tracks.sweep_nodup (tracks : s.Tracks names) : (sweep s.functions.body).Nodup := by
  refine List.Nodup.map_on ?_ (List.Nodup.of_map Prod.fst tracks.table.wf.keys_nodup)
  rintro ⟨one, r⟩ first ⟨other, _⟩ second rfl
  rw [tracks.injective one other r (tracks.table.wf.lookup_eq_some.mpr first) (tracks.table.wf.lookup_eq_some.mpr second)]

/-- The end of a server on which no name waits to be registered again. -/
theorem Accounted.swept (accounted : s.Accounted) (tracks : s.Tracks names)
    (settled : ∀ fnName, names fnName ≠ .unregistered) :
    ∃ freed, drpcServerFreeFunctions s = .ok freed ∧ freed.ReleasedOnce := by
  have held (r : Nat) (member : r ∈ sweep s.functions.body) : s.Held r := by
    obtain ⟨fnName, found⟩ := tracks.mem_sweep.mp member
    obtain ⟨-, live⟩ | ⟨unregistered, -⟩ := tracks.found_cases found
    · exact accounted.held live
    · exact absurd unregistered (settled fnName)
  obtain ⟨freed, ran, settles⟩ := sweep_settles tracks.sweep_nodup held
  obtain ⟨next, untouched⟩ := sweep_frame ran
  refine ⟨freed, ran, fun r positive below => ?_⟩
  rw [next] at below
  by_cases member : r ∈ sweep s.functions.body
  · exact (settles r member).once
  · obtain done | ⟨-, named⟩ := accounted.each r positive below
    · exact ((untouched r member).settled done).once
    · exact absurd (tracks.mem_sweep.mpr named) member

/-- The end of a server that has lost a record. -/
theorem Leaks.swept (leaks : s.Leaks) (tracks : s.Tracks names) {freed : FnServer}
    (ran : drpcServerFreeFunctions s = .ok freed) : ¬ freed.ReleasedOnce := by
  obtain ⟨r, held, lost⟩ := leaks
  obtain ⟨next, untouched⟩ := sweep_frame ran
  intro releasedOnce
  obtain ⟨record, released, -⟩ := releasedOnce r held.within.1 (by rw [next]; exact held.within.2)
  have kept := (untouched r fun member => ?_).released
  · rw [held.unreleased, released] at kept
    cases kept
  · obtain ⟨fnName, found⟩ := tracks.mem_sweep.mp member
    exact lost fnName found

/-- A name that is unregistered at the end makes the sweep read a released record. -/
theorem Tracks.swept_gone (tracks : s.Tracks names) {fnName : CString} (unregistered : names fnName = .unregistered) :
    ¬ Returns (drpcServerFreeFunctions s) := by
  have before := tracks.describes fnName
  rw [unregistered] at before
  obtain ⟨r, found, gone⟩ := before
  exact sweep_gone (tracks.mem_sweep.mpr ⟨fnName, found⟩) gone

/-- A run after which a record is lost ends badly. -/
theorem Leaks.run (leaks : s.Leaks) (tracks : s.Tracks names) {calls : List FnCall} {freed : FnServer}
    (ran : Runs.run FnCall.run s calls = .ok s') (swept : drpcServerFreeFunctions s' = .ok freed) :
    ¬ freed.ReleasedOnce := by
  induction calls generalizing s names with
  | nil =>
    cases ran
    exact leaks.swept tracks swept
  | cons call calls ih =>
    obtain ⟨middle, first, rest⟩ := bind_eq_ok.mp ran
    exact ih (leaks.step tracks first) (tracks.step first) rest

/-- A run releases every record exactly once, without touching a released one,
exactly when its calls are tame. -/
theorem run_releasedOnce_iff (calls : List FnCall) (tracks : s.Tracks names) (accounted : s.Accounted) :
    (∃ s' freed, Runs.run FnCall.run s calls = .ok s' ∧ drpcServerFreeFunctions s' = .ok freed ∧ freed.ReleasedOnce) ↔
      Tame names calls := by
  induction calls generalizing s names with
  | nil =>
    constructor
    · rintro ⟨s', freed, ran, swept, -⟩ fnName unregistered
      cases ran
      exact tracks.swept_gone unregistered ⟨freed, swept⟩
    · intro settled
      obtain ⟨freed, swept, once⟩ := accounted.swept tracks settled
      exact ⟨s, freed, rfl, swept, once⟩
  | cons call calls ih =>
    constructor
    · rintro ⟨s', freed, ran, swept, once⟩
      obtain ⟨middle, first, rest⟩ := bind_eq_ok.mp ran
      have allowed : call.Allowed names := by
        obtain allowed | ⟨fnName, fnInfo, fnstorage, rfl⟩ := (tracks.run_returns_iff call).mp ⟨middle, first⟩
        · exact allowed
        · intro registered
          exact (accounted.overwritten tracks registered first).run (tracks.step first) rest swept once
      exact ⟨allowed, (ih (tracks.step first) (accounted.step tracks allowed first)).mp ⟨s', freed, rest, swept, once⟩⟩
    · rintro ⟨allowed, tame⟩
      obtain ⟨middle, first⟩ := (tracks.run_returns_iff call).mpr (.inl allowed)
      obtain ⟨s', freed, rest, swept, once⟩ :=
        (ih (tracks.step first) (accounted.step tracks allowed first)).mpr tame
      exact ⟨s', freed, by rw [Runs.run_cons, first, ok_bind, rest], swept, once⟩

end FnServer

/-- The answer `notfound` is the reply of `drpc_handle_call` to a request that names the function. -/
theorem drpcLookUpFn_notfound {s : FnServer} {fnName : CString} {payload : Payload} {given : Option (DArray Argument)}
    (asked : payload.request = .ok (some (fnName, given))) (looked : drpcLookUpFn s fnName = .ok .notfound)
    (records : Nat → DrpcFunction) (clientPerm : Int) (memory : Memory Element) :
    ∃ handled, drpcHandleCall ⟨s.functions, records⟩ clientPerm memory (some payload) = .ok handled ∧
      handled.reply.messageType = .notfound := by
  obtain ⟨callFn, get, answer⟩ := bind_eq_ok.mp looked
  have absent : callFn = none := by
    cases callFn with
    | none => rfl
    | some address =>
      obtain ⟨record, -, same⟩ := bind_eq_ok.mp answer
      cases same
  rw [absent] at get
  rw [drpcHandleCall_eq, drpcAdmitCall, asked, ok_bind]
  dsimp only
  rw [get]
  exact ⟨_, rfl, rfl⟩

/-- After `drpc_server_unregister_fn` has returned 0 for a name, and until it
is registered again, a call of it is answered `drpc_notfound` and a second
unregistration returns 1. -/
def Forgets (calls : List FnCall) (answers : List FnAnswer) : Prop :=
  ∀ before between after fnName call, calls = before ++ .unregister fnName :: (between ++ call :: after) →
    answers[before.length]? = some (.ret 0) →
    (∀ c ∈ between, ∀ fnInfo fnstorage, c ≠ .register fnName fnInfo fnstorage) →
    (call = .call fnName → answers[before.length + 1 + between.length]? = some .notfound) ∧
      (call = .unregister fnName → answers[before.length + 1 + between.length]? = some (.ret 1))

section Answers
variable {names : CString → NameState} {s s' : FnServer} {fnName : CString}

theorem FnCall.run_answers {call : FnCall} (ran : call.run s = .ok s') : ∃ answer, s'.answers = s.answers ++ [answer] := by
  cases call with
  | register fnName fnInfo fnstorage =>
    obtain ⟨registered, run, same⟩ := bind_eq_ok.mp ran
    cases same
    obtain ⟨functions, -, same⟩ := bind_eq_ok.mp run
    cases same
    exact ⟨.void, rfl⟩
  | setFnstorageFreeCb fnName fnstorageFreeCb userdata =>
    obtain ⟨⟨written, ret⟩, run, same⟩ := bind_eq_ok.mp ran
    cases same
    obtain ⟨found, -, run⟩ := bind_eq_ok.mp run
    refine ⟨.ret ret, ?_⟩
    cases found with
    | none =>
      cases run
      rfl
    | some address =>
      obtain ⟨record, -, run⟩ := bind_eq_ok.mp run
      obtain ⟨records, -, same⟩ := bind_eq_ok.mp run
      cases same
      rfl
  | unregister fnName =>
    obtain ⟨⟨freed, ret⟩, run, same⟩ := bind_eq_ok.mp ran
    cases same
    obtain ⟨found, -, run⟩ := bind_eq_ok.mp run
    refine ⟨.ret ret, ?_⟩
    cases found with
    | none =>
      cases run
      rfl
    | some address =>
      obtain ⟨-, -, answers, -⟩ := FnServer.drpcFnFree_inv run
      dsimp only
      rw [answers]
  | call fnName =>
    obtain ⟨answer, -, same⟩ := bind_eq_ok.mp ran
    cases same
    exact ⟨answer, rfl⟩

theorem FnServer.Tracks.run (tracks : s.Tracks names) {calls : List FnCall} (ran : Runs.run FnCall.run s calls = .ok s') :
    s'.Tracks (calls.foldl FnCall.next names) := by
  induction calls generalizing s names with
  | nil =>
    cases ran
    exact tracks
  | cons call calls ih =>
    obtain ⟨middle, first, rest⟩ := bind_eq_ok.mp ran
    exact ih (tracks.step first) rest

theorem run_answers {calls : List FnCall} (ran : Runs.run FnCall.run s calls = .ok s') :
    ∃ answers, s'.answers = s.answers ++ answers ∧ answers.length = calls.length := by
  induction calls generalizing s with
  | nil =>
    cases ran
    exact ⟨[], (List.append_nil _).symm, rfl⟩
  | cons call calls ih =>
    obtain ⟨middle, first, rest⟩ := bind_eq_ok.mp ran
    obtain ⟨answer, one⟩ := FnCall.run_answers first
    obtain ⟨answers, others, length⟩ := ih rest
    exact ⟨answer :: answers, by rw [others, one, List.append_assoc]; rfl, by rw [List.length_cons, length, List.length_cons]⟩

/-- A name stays unregistered until it is registered. -/
theorem foldl_next_unregistered {calls : List FnCall} (state : names fnName = .unregistered)
    (others : ∀ c ∈ calls, ∀ fnInfo fnstorage, c ≠ .register fnName fnInfo fnstorage) :
    calls.foldl FnCall.next names fnName = .unregistered := by
  induction calls generalizing names with
  | nil => exact state
  | cons call calls ih =>
    obtain ⟨here, later⟩ := List.forall_mem_cons.mp others
    refine ih ?_ later
    cases call with
    | register name fnInfo fnstorage =>
      have different : fnName ≠ name := by
        rintro rfl
        exact here fnInfo fnstorage rfl
      rw [FnCall.next, Function.update_of_ne different, state]
    | unregister name =>
      rw [FnCall.next]
      split
      · next registered =>
        have different : fnName ≠ name := by
          rintro rfl
          rw [state] at registered
          cases registered
        rw [Function.update_of_ne different, state]
      · exact state
    | setFnstorageFreeCb _ _ _ | call _ => exact state

/-- In a run that returns nothing happens to a name while it is unregistered. -/
theorem run_forgets {calls : List FnCall} (ran : fnRun calls = .ok s) : Forgets calls s.answers := by
  rintro before between after fnName call rfl zero quiet
  rw [fnRun, run_append] at ran
  obtain ⟨first, earlier, ran⟩ := bind_eq_ok.mp ran
  rw [run_cons] at ran
  obtain ⟨second, unregistered, ran⟩ := bind_eq_ok.mp ran
  have answered : second.answers = first.answers ++ [.ret 0] := by
    obtain ⟨answer, here⟩ := FnCall.run_answers unregistered
    obtain ⟨past, before_answers, length⟩ := run_answers earlier
    obtain ⟨later, after_answers, -⟩ := run_answers ran
    have past_length : first.answers.length = before.length := by
      rw [before_answers, List.length_append, length]
      simp [FnServer.start]
    rw [after_answers, here, List.append_assoc, List.getElem?_append_right (by omega), past_length, Nat.sub_self] at zero
    cases zero
    exact here
  rw [run_append] at ran
  obtain ⟨third, between_run, ran⟩ := bind_eq_ok.mp ran
  obtain ⟨fourth, here, rest⟩ := bind_eq_ok.mp ran
  have tracks := FnServer.start_tracks.run earlier
  have state : (before.foldl FnCall.next fun _ => .absent) fnName = .registered := by
    obtain ⟨_, _, _, same⟩ | ⟨_, _, _, same, registered, -⟩ | ⟨-, -, -, -, -, -, answer, here, other⟩ :=
      tracks.run_cases unregistered
    · cases same
    · cases same
      exact registered
    · rw [here, List.append_cancel_left_eq] at answered
      cases answered
      exact absurd rfl (other rfl fnName)
  have later := (tracks.step unregistered).run between_run
  have gone : (between.foldl FnCall.next (FnCall.next (before.foldl FnCall.next fun _ => .absent) (.unregister fnName)))
      fnName = .unregistered := by
    refine foldl_next_unregistered ?_ quiet
    rw [FnCall.next, if_pos state, Function.update_self]
  have returned := (later.run_returns_iff call).mp ⟨fourth, here⟩
  refine ⟨?_, ?_⟩
  · rintro rfl
    obtain allowed | ⟨_, _, _, same⟩ := returned
    · exact absurd gone allowed
    · cases same
  · rintro rfl
    obtain allowed | ⟨_, _, _, same⟩ := returned
    · exact absurd gone allowed
    · cases same

end Answers

/-- The life of the records of a server: no released record is looked up, names
are forgotten when they are unregistered, and in the end every record has been
released exactly once. -/
def FnLifecycle (calls : List FnCall) : Prop :=
  ∃ s freed, fnRun calls = .ok s ∧ drpcServerFreeFunctions s = .ok freed ∧ Forgets calls s.answers ∧ freed.ReleasedOnce

theorem fnLifecycle_iff (calls : List FnCall) : FnLifecycle calls ↔ Tame (fun _ => .absent) calls := by
  rw [← FnServer.run_releasedOnce_iff calls FnServer.start_tracks FnServer.start_accounted]
  constructor
  · rintro ⟨s, freed, ran, swept, -, once⟩
    exact ⟨s, freed, ran, swept, once⟩
  · rintro ⟨s, freed, ran, swept, once⟩
    exact ⟨s, freed, ran, swept, run_forgets ran, once⟩

/-- A function that was unregistered is looked up in the record that was released. -/
theorem fnLifecycle_unregistered : ¬ ∀ calls, FnLifecycle calls := by
  intro lives
  let fnInfo : DrpcFunction := ⟨none, .dVoid, 0, fun _ memory => pure (memory, 0)⟩
  obtain ⟨s, freed, ran, -⟩ :=
    lives [.register (.ofString "f") fnInfo 0, .unregister (.ofString "f"), .call (.ofString "f")]
  have faults : (fnRun [.register (.ofString "f") fnInfo 0, .unregister (.ofString "f"), .call (.ofString "f")]).map
      FnServer.answers = .error .outside := by decide +kernel
  rw [ran] at faults
  cases faults

end DynamicRPC
