import LibraLive.Joins

/-!
# Only threads that exist are joined

`init_stop` joins the prepare thread and `pid_play` whatever happened before, `init_start` the threads of both channels, and
nobody notes what was joined. It comes out right when `start` is called once, on channels that are all made, and is back
before `init_stop` comes to `pid_play`, and when `stop` is not called again.
-/

namespace LibraLive

/-- Only existing threads are joined: `pthread_join` is called for threads that were created and at most once for each, and a
channel is deleted only when all threads created for it have been joined. -/
structure JoinsExisting (s : Joins) : Prop where
  created : ∀ id ∈ s.joins, ∃ thread ∈ s.created, id = some thread
  once : s.joins.Nodup
  deleted : ∀ kind ∈ s.deleted, ∀ (thread : ChannelThread) (call : Nat), thread.kind = kind →
    .channel thread call ∈ s.created → .channel thread call ∈ s.joined

/-- It fails when the source does not open and the player is stopped: `pid_play` is joined, and there is no such thread. -/
theorem missing_thread_joined : ¬ ∀ s, Joins.lts.Reachable s → JoinsExisting s := by
  intro hall
  have hrun : (Lts.replay Joins.step Joins.new [.fail, .callStop, .stop 0, .stop 0, .stop 0]).map (·.joins) =
      some [some .prepare, none] := rfl
  obtain ⟨s, hs, hjoins⟩ := Option.map_eq_some_iff.mp hrun
  have hr : Joins.lts.Reachable s := Lts.replay_reachable (fun _ _ _ => id) _ (.init rfl) hs
  obtain ⟨thread, -, hnone⟩ := (hall s hr).created none (by simp [hjoins])
  cases hnone

/-- The condition on the steps: `start` is called once, after the last channel was made, and has returned when `init_stop`
comes to `pid_play`; `stop` is called once. -/
def calledInOrder (s : Joins) : JoinsAct → Bool
  | .makeChannel _ | .listener true | .callStart => s.starts = []
  | .callStop => s.stops = []
  | .stop i => s.stops[i]? = some .joinPlay → s.starts.any (·.caller = .returned)
  | _ => true

/-! ## How far the calls have come -/

/-- How many threads of channels a call of `start` has gone past. -/
def StartPlace.rank : StartPlace → Nat
  | .create thread => thread.rank
  | .play => 4
  | .returned => 5

/-- Twice the number of threads `init_start` has joined, and one more while it waits. -/
def PlayPlace.rank : PlayPlace → Nat
  | .notCreated | .loop => 0
  | .join thread => 2 * thread.rank
  | .wait thread _ => 2 * thread.rank + 1
  | .ended => 8

/-- How many statements of `init_stop` are done. -/
def StopPlace.rank : StopPlace → Nat
  | .joinPrepare => 0
  | .waitPrepare => 1
  | .joinPlay => 2
  | .waitPlay _ => 3
  | .deleteVideo => 4
  | .deleteAudio => 5
  | .ended => 6

namespace ChannelThread

theorem rank_lt (thread : ChannelThread) : thread.rank < 4 := by
  cases thread with
  | decode kind => cases kind <;> decide
  | output kind => cases kind <;> decide

/-- The rank tells the threads apart. -/
theorem eq_of_rank {t u : ChannelThread} (h : t.rank = u.rank) : t = u := by
  revert h
  rcases t with (_ | _) | (_ | _) <;> rcases u with (_ | _) | (_ | _) <;> decide

/-- The next thread has the next rank, in `start` and in `init_start`. -/
theorem rank_next (thread : ChannelThread) :
    (thread.next.elim StartPlace.play .create).rank = thread.rank + 1 ∧
      (thread.next.elim PlayPlace.ended .join).rank = 2 * thread.rank + 2 := by
  rcases thread with (_ | _) | (_ | _) <;> decide

/-- Past both threads of a channel that is not there, nothing changes for the threads of the other one. -/
theorem rank_skip {thread : ChannelThread} {kind : Kind} (h : thread.kind ≠ kind) :
    thread.rank < ((ChannelThread.output kind).next.elim StartPlace.play .create).rank ↔
      thread.rank < (ChannelThread.decode kind).rank := by
  revert h
  rcases thread with (_ | _) | (_ | _) <;> cases kind <;> decide

end ChannelThread

/-- A call of `start` that goes on to the next thread has not returned. -/
theorem StartPlace.elim_ne_returned (next : Option ChannelThread) : next.elim StartPlace.play .create ≠ .returned := by
  cases next <;> exact StartPlace.noConfusion

namespace Joins

/-- The one call of `start`, which has not begun where there is none. -/
def call (s : Joins) : StartCall := s.starts.headD .new

/-- The one thread of `init_stop`, which has not begun where there is none. -/
def stopper (s : Joins) : StopPlace := s.stops.headD .joinPrepare

/-- What the ids are when `start` is called at most once, on channels that are all made. -/
structure IdsWritten (s : Joins) : Prop where
  starts : s.starts.length ≤ 1
  play : s.call.play = .notCreated ↔ s.call.caller ≠ .returned
  pid_play : s.pid_play = if s.call.caller = .returned then some (.play 0) else none
  pid : ∀ thread c, s.channel thread.kind = some c →
    c.pid thread = if thread.rank < s.call.caller.rank then some (.channel thread 0) else none
  prepareCreated : .prepare ∈ s.created
  playCreated : ∀ id, s.pid_play = some id → id ∈ s.created
  pidCreated : ∀ (thread : ChannelThread) c id, s.channel thread.kind = some c → c.pid thread = some id → id ∈ s.created
  firstCall : ∀ thread call, .channel thread call ∈ s.created → call = 0

/-- What was joined, when `stop` is called at most once as well. -/
structure JoinsSoFar (s : Joins) : Prop where
  stops : s.stops.length ≤ 1
  created : ∀ id ∈ s.joins, ∃ thread ∈ s.created, id = some thread
  once : s.joins.Nodup
  prepare : some .prepare ∈ s.joins → 1 ≤ s.stopper.rank
  play : ∀ call, some (.play call) ∈ s.joins → 3 ≤ s.stopper.rank
  channel : ∀ thread call, some (.channel thread call) ∈ s.joins → 2 * thread.rank + 1 ≤ s.call.play.rank
  joined : ∀ thread : ChannelThread, 2 * thread.rank + 2 ≤ s.call.play.rank → .channel thread 0 ∈ s.joined
  waiting : ∀ thread id, s.call.play = .wait thread id → id = some (.channel thread 0)
  waitingPlay : ∀ id, s.stopper = .waitPlay id → id = some (.play 0)
  playEnded : 4 ≤ s.stopper.rank → s.call.play = .ended
  deleted : s.deleted ≠ [] → 4 ≤ s.stopper.rank

variable {s s' : Joins}

/-- An index into a list of at most one entry. -/
theorem eq_singleton {α : Type*} {l : List α} {i : Nat} {a : α} (hl : l.length ≤ 1) (h : l[i]? = some a) : i = 0 ∧ l = [a] := by
  obtain ⟨hi, ha⟩ := List.getElem?_eq_some_iff.mp h
  obtain rfl : i = 0 := by omega
  obtain ⟨b, rfl⟩ := List.length_eq_one_iff.mp (by omega : l.length = 1)
  exact ⟨rfl, by rw [← ha]; rfl⟩

@[simp] theorem channel_setChannel (s : Joins) (k k' : Kind) (c : Option ChannelIds) :
    (s.setChannel k c).channel k' = if k' = k then c else s.channel k' := by
  cases k <;> cases k' <;> rfl

@[simp] theorem starts_setChannel (s : Joins) (k : Kind) (c : Option ChannelIds) : (s.setChannel k c).starts = s.starts := by
  cases k <;> rfl

/-- Writing one id leaves the other alone. -/
theorem pid_setPid (c : ChannelIds) (t u : ChannelThread) (id : ThreadId) (hkind : u.kind = t.kind) :
    (c.setPid t id).pid u = if u = t then some id else c.pid u := by
  rcases t with k | k <;> rcases u with l | l <;> obtain rfl : l = k := hkind <;> simp [ChannelIds.setPid, ChannelIds.pid]

/-! ## What a step does to the ids -/

namespace IdsWritten

/-- A step that writes no id and creates no thread. -/
theorem of_same (hs : IdsWritten s) (hstarts : s'.starts.length = s.starts.length)
    (hcaller : s'.call.caller = s.call.caller) (hplay : s'.call.play = .notCreated ↔ s.call.play = .notCreated)
    (hpid : s'.pid_play = s.pid_play) (hcreated : s'.created = s.created)
    (hchannel : ∀ k c, s'.channel k = some c → s.channel k = some c) : IdsWritten s' where
  starts := hstarts ▸ hs.starts
  play := by rw [hplay, hcaller, hs.play]
  pid_play := by rw [hpid, hcaller, hs.pid_play]
  pid thread c hc := by rw [hcaller, hs.pid thread c (hchannel _ c hc)]
  prepareCreated := hcreated ▸ hs.prepareCreated
  playCreated id hid := hcreated ▸ hs.playCreated id (hpid ▸ hid)
  pidCreated thread c id hc hid := hcreated ▸ hs.pidCreated thread c id (hchannel _ c hc) hid
  firstCall thread call hthread := hs.firstCall thread call (hcreated ▸ hthread)

/-- A channel made before `start` is called has no ids yet. -/
theorem makeChannel (hs : IdsWritten s) (hstarts : s.starts = []) (kind : Kind) :
    IdsWritten (s.setChannel kind (some .new)) := by
  have hcall : (s.setChannel kind (some .new)).call = s.call := by rw [call, starts_setChannel, call]
  have hfirst : s.call = .new := by rw [call, hstarts]; rfl
  have hnone : ∀ thread, ChannelIds.new.pid thread = none := fun thread => by cases thread <;> rfl
  refine ⟨?_, ?_, ?_, ?_, ?_, ?_, ?_, ?_⟩
  · rw [starts_setChannel]
    exact hs.starts
  · rw [hcall]
    exact hs.play
  · rw [hcall]
    cases kind <;> exact hs.pid_play
  · intro thread c hc
    rw [hcall]
    rw [channel_setChannel] at hc
    split at hc
    · obtain rfl := Option.some.inj hc
      rw [hnone, hfirst]
      exact (if_neg (Nat.not_lt_zero _)).symm
    · exact hs.pid thread c hc
  · cases kind <;> exact hs.prepareCreated
  · cases kind <;> exact hs.playCreated
  · intro thread c id hc hid
    rw [channel_setChannel] at hc
    split at hc
    · obtain rfl := Option.some.inj hc
      rw [hnone] at hid
      cases hid
    · cases kind <;> exact hs.pidCreated thread c id hc hid
  · cases kind <;> exact hs.firstCall

/-- The call of `start` goes on to the next thread of a channel. -/
theorem goOn (hs : IdsWritten s) (next : Option ChannelThread) {c : StartCall} (hstarts : s.starts = [c])
    (hcaller : c.caller ≠ .returned) (hstarts' : s'.starts = [{ c with caller := next.elim .play .create }])
    (hpid_play : s'.pid_play = s.pid_play) (hsub : s.created ⊆ s'.created)
    (hpid : ∀ thread ids, s'.channel thread.kind = some ids →
      ids.pid thread = if thread.rank < (next.elim StartPlace.play .create).rank then some (.channel thread 0) else none)
    (hpidCreated : ∀ (thread : ChannelThread) ids id, s'.channel thread.kind = some ids → ids.pid thread = some id →
      id ∈ s'.created)
    (hfirst : ∀ thread call, .channel thread call ∈ s'.created → call = 0) : IdsWritten s' := by
  have hcall : s.call = c := by rw [call, hstarts]; rfl
  have hcall' : s'.call = { c with caller := next.elim .play .create } := by rw [call, hstarts']; rfl
  have hne' := StartPlace.elim_ne_returned next
  have hplay : c.play = .notCreated := hcall ▸ hs.play.mpr (hcall ▸ hcaller)
  refine ⟨by rw [hstarts']; exact Nat.le_refl 1, ?_, ?_, ?_, hsub hs.prepareCreated, ?_, hpidCreated, hfirst⟩
  · rw [hcall']
    exact iff_of_true hplay hne'
  · rw [hcall', if_neg hne', hpid_play, hs.pid_play, hcall, if_neg hcaller]
  · intro thread ids hids
    rw [hpid thread ids hids, hcall']
  · intro id hid
    exact hsub (hs.playCreated id (hpid_play ▸ hid))

/-- The call of `start` goes past the threads of a channel that is not there. -/
theorem skip (hs : IdsWritten s) {c : StartCall} {kind : Kind} (hstarts : s.starts = [c])
    (hcaller : c.caller = .create (.decode kind)) (hnone : s.channel kind = none) :
    IdsWritten (s.setCaller 0 ((ChannelThread.output kind).next.elim .play .create)) := by
  have hcall : s.call = c := by rw [call, hstarts]; rfl
  refine hs.goOn (ChannelThread.output kind).next hstarts (by simp [hcaller]) (by simp [setCaller, hstarts]) rfl (List.Subset.refl _) ?_ hs.pidCreated
    hs.firstCall
  intro thread ids hids
  have hkind : thread.kind ≠ kind := by
    intro h
    rw [← h] at hnone
    exact absurd (hnone.symm.trans hids) (by simp)
  rw [hs.pid thread ids hids, hcall, hcaller]
  simp only [ChannelThread.rank_skip hkind]
  rfl

/-- The call of `start` creates a thread of a channel. -/
theorem create (hs : IdsWritten s) {c : StartCall} {thread : ChannelThread} {ids : ChannelIds} (hstarts : s.starts = [c])
    (hcaller : c.caller = .create thread) (hids : s.channel thread.kind = some ids) :
    IdsWritten { (s.setChannel thread.kind (some (ids.setPid thread (.channel thread 0)))).setCaller 0
      (thread.next.elim .play .create) with created := s.created ++ [.channel thread 0] } := by
  have hcall : s.call = c := by rw [call, hstarts]; rfl
  have hold : ∀ u ids, s.channel u.kind = some ids →
      ids.pid u = if u.rank < thread.rank then some (.channel u 0) else none := by
    intro u ids hu
    rw [hs.pid u ids hu, hcall, hcaller]
    rfl
  have hnew : ∀ (u : ChannelThread) ids', (s.setChannel thread.kind (some (ids.setPid thread (.channel thread 0)))).channel
      u.kind = some ids' → u = thread ∧ ids'.pid u = some (.channel thread 0) ∨
        u ≠ thread ∧ ∃ ids, s.channel u.kind = some ids ∧ ids'.pid u = ids.pid u := by
    intro u ids' hu
    rw [channel_setChannel] at hu
    by_cases hut : u = thread
    · subst hut
      rw [if_pos rfl] at hu
      obtain rfl := Option.some.inj hu
      exact Or.inl ⟨rfl, by simp [pid_setPid]⟩
    · refine Or.inr ⟨hut, ?_⟩
      split at hu
      · rename_i hkind
        obtain rfl := Option.some.inj hu
        exact ⟨ids, hkind ▸ hids, by rw [pid_setPid _ _ _ _ hkind, if_neg hut]⟩
      · exact ⟨ids', hu, rfl⟩
  refine hs.goOn thread.next hstarts (by simp [hcaller]) (by simp [setCaller, hstarts]) ?_ (List.subset_append_left _ _) ?_ ?_ ?_
  · cases thread.kind <;> rfl
  · intro u ids' hu
    have hrank := thread.rank_next.1
    rcases hnew u ids' hu with ⟨rfl, hpid⟩ | ⟨hut, ids, hu, hpid⟩
    · rw [hpid, if_pos (by omega)]
    · have hne : u.rank ≠ thread.rank := fun h => hut (ChannelThread.eq_of_rank h)
      rw [hpid, hold u ids hu]
      exact if_congr (by omega) rfl rfl
  · intro u ids' id hu hid
    rcases hnew u ids' hu with ⟨rfl, hpid⟩ | ⟨hut, ids, hu, hpid⟩
    · obtain rfl := Option.some.inj (hpid.symm.trans hid)
      exact List.mem_append_right _ (List.mem_singleton_self _)
    · exact List.mem_append_left _ (hs.pidCreated u ids id hu (hpid ▸ hid))
  · intro u call hu
    rcases List.mem_append.mp hu with hu | hu
    · exact hs.firstCall u call hu
    · obtain ⟨-, rfl⟩ := ThreadId.channel.inj (List.mem_singleton.mp hu)
      rfl

/-- The call of `start` creates the thread of `init_start`. -/
theorem createPlay (hs : IdsWritten s) {c : StartCall} (hstarts : s.starts = [c]) (hcaller : c.caller = .play) :
    IdsWritten { (s.setCaller 0 .returned).setPlay 0 .loop with
      pid_play := some (.play 0)
      created := s.created ++ [.play 0] } := by
  have hcall : s.call = c := by rw [call, hstarts]; rfl
  have hstarts' : ((s.setCaller 0 .returned).setPlay 0 .loop).starts = [⟨.returned, .loop⟩] := by
    simp [setCaller, setPlay, hstarts]
  refine ⟨?_, ?_, ?_, ?_, ?_, ?_, ?_, ?_⟩
  · simp [hstarts']
  · simp [call, hstarts']
  · simp [call, hstarts']
  · intro thread ids hids
    have hplay : thread.rank < StartPlace.play.rank := thread.rank_lt
    have hreturned : thread.rank < StartPlace.returned.rank := Nat.lt_succ_of_lt thread.rank_lt
    rw [hs.pid thread ids hids, hcall, hcaller, if_pos hplay]
    simp only [call, hstarts', List.headD_cons]
    rw [if_pos hreturned]
  · exact List.mem_append_left _ hs.prepareCreated
  · intro id hid
    obtain rfl := Option.some.inj hid
    exact List.mem_append_right _ (List.mem_singleton_self _)
  · intro thread ids id hids hid
    exact List.mem_append_left _ (hs.pidCreated thread ids id hids hid)
  · intro thread call hthread
    rcases List.mem_append.mp hthread with hthread | hthread
    · exact hs.firstCall thread call hthread
    · exact ThreadId.noConfusion (List.mem_singleton.mp hthread)

/-- A call of `pthread_join`. -/
theorem callJoin (hs : IdsWritten s) (target : Option ThreadId) : IdsWritten (s.callJoin target) :=
  hs.of_same rfl rfl Iff.rfl rfl rfl fun _ _ => id

/-- A return of `pthread_join`. -/
theorem joined (hs : IdsWritten s) (joined : List ThreadId) : IdsWritten { s with joined := joined } :=
  hs.of_same rfl rfl Iff.rfl rfl rfl fun _ _ => id

/-- The thread of `init_start` goes on. -/
theorem setPlay (hs : IdsWritten s) {c : StartCall} {place : PlayPlace} (hstarts : s.starts = [c])
    (hcreated : c.play ≠ .notCreated) (hplace : place ≠ .notCreated) : IdsWritten (s.setPlay 0 place) := by
  have hcall : s.call = c := by rw [call, hstarts]; rfl
  have hstarts' : (s.setPlay 0 place).starts = [{ c with play := place }] := by simp [Joins.setPlay, hstarts]
  have hcall' : (s.setPlay 0 place).call = { c with play := place } := by rw [call, hstarts']; rfl
  refine hs.of_same (by rw [hstarts', hstarts]; rfl) (by rw [hcall', hcall]) ?_ rfl rfl fun _ _ => id
  rw [hcall', hcall]
  exact iff_of_false hplace hcreated

/-- The thread of `init_stop` goes on. -/
theorem setStop (hs : IdsWritten s) (place : StopPlace) : IdsWritten (s.setStop 0 place) :=
  hs.of_same rfl rfl Iff.rfl rfl rfl fun _ _ => id

/-- A call of `start` has returned, and that is the one. -/
theorem returned_iff (hs : IdsWritten s) : s.starts.any (·.caller = .returned) = true ↔ s.call.caller = .returned := by
  have hlen := hs.starts
  unfold call
  cases hstarts : s.starts with
  | nil => simp [StartCall.new]
  | cons c rest =>
    rw [hstarts, List.length_cons] at hlen
    obtain rfl : rest = [] := List.eq_nil_of_length_eq_zero (by omega)
    simp

end IdsWritten

/-! ## What a step does to the joins -/

/-- A step that joins no thread and deletes no channel. -/
structure JoinsKept (s s' : Joins) : Prop where
  stops : s'.stops = s.stops
  joins : s'.joins = s.joins
  joined : s'.joined = s.joined
  deleted : s'.deleted = s.deleted
  created : s.created ⊆ s'.created
  rank : s'.call.play.rank = s.call.play.rank
  waiting : ∀ thread id, s'.call.play = .wait thread id → s.call.play = .wait thread id
  ended : s.call.play = .ended → s'.call.play = .ended

/-- A step that does not move the thread of `init_start` either. -/
theorem JoinsKept.of_play (hstops : s'.stops = s.stops) (hjoins : s'.joins = s.joins) (hjoined : s'.joined = s.joined)
    (hdeleted : s'.deleted = s.deleted) (hcreated : s.created ⊆ s'.created) (hplay : s'.call.play = s.call.play) :
    JoinsKept s s' :=
  ⟨hstops, hjoins, hjoined, hdeleted, hcreated, by rw [hplay], fun _ _ h => hplay ▸ h, fun h => hplay ▸ h⟩

/-- It keeps what was joined. -/
theorem JoinsSoFar.of_kept (hs : JoinsSoFar s) (h : JoinsKept s s') : JoinsSoFar s' := by
  have hstopper : s'.stopper = s.stopper := by rw [stopper, h.stops, stopper]
  refine ⟨h.stops ▸ hs.stops, ?_, h.joins ▸ hs.once, ?_, ?_, ?_, ?_, ?_, ?_, ?_, ?_⟩
  · intro id hid
    obtain ⟨thread, hthread, hid⟩ := hs.created id (h.joins ▸ hid)
    exact ⟨thread, h.created hthread, hid⟩
  · rw [h.joins, hstopper]
    exact hs.prepare
  · rw [h.joins, hstopper]
    exact hs.play
  · rw [h.joins, h.rank]
    exact hs.channel
  · rw [h.joined, h.rank]
    exact hs.joined
  · intro thread id hwait
    exact hs.waiting thread id (h.waiting thread id hwait)
  · rw [hstopper]
    exact hs.waitingPlay
  · rw [hstopper]
    exact fun hstop => h.ended (hs.playEnded hstop)
  · rw [h.deleted, hstopper]
    exact hs.deleted

/-- What a step of the one call of `start` does to the ids and to the joins. -/
theorem start_step (hs : IdsWritten s) {c : StartCall} (hstarts : s.starts = [c]) (h : s.start 0 c.caller = some s') :
    IdsWritten s' ∧ JoinsKept s s' := by
  have hcall : s.call = c := by rw [call, hstarts]; rfl
  unfold Joins.start at h
  split at h
  · rename_i thread hcaller
    split at h
    · rename_i hnone
      split at h
      · rename_i kind
        obtain rfl := Option.some.inj h
        refine ⟨hs.skip hstarts hcaller hnone, .of_play rfl rfl rfl rfl (List.Subset.refl _) ?_⟩
        simp [call, setCaller, hstarts]
      · obtain rfl := Option.some.inj h
        exact ⟨hs.of_same rfl rfl Iff.rfl rfl rfl (fun _ _ => id), .of_play rfl rfl rfl rfl (List.Subset.refl _) rfl⟩
    · rename_i ids hids
      obtain rfl := Option.some.inj h
      refine ⟨hs.create hstarts hcaller hids, ?_⟩
      cases thread.kind <;>
        exact .of_play rfl rfl rfl rfl (List.subset_append_left _ _) (by simp [call, setCaller, setChannel, hstarts])
  · rename_i hcaller
    obtain rfl := Option.some.inj h
    have hnot : s.call.play = .notCreated := hs.play.mpr (by rw [hcall, hcaller]; exact StartPlace.noConfusion)
    have hstarts' : ((s.setCaller 0 .returned).setPlay 0 .loop).starts = [⟨.returned, .loop⟩] := by
      simp [setCaller, setPlay, hstarts]
    refine ⟨hs.createPlay hstarts hcaller, rfl, rfl, rfl, rfl, List.subset_append_left _ _, ?_, ?_, ?_⟩
    · rw [hnot, call, hstarts']
      rfl
    · intro thread id hwait
      rw [call, hstarts'] at hwait
      cases hwait
    · intro hended
      rw [hnot] at hended
      cases hended
  · cases h

/-- `pthread_join` has come back. -/
theorem returnJoin_eq {id : Option ThreadId} (h : s.returnJoin id = some s') :
    id.all s.hasEnded = true ∧ s' = { s with joined := s.joined ++ id.toList } := by
  unfold returnJoin at h
  split at h
  · rename_i hended
    exact ⟨hended, (Option.some.inj h).symm⟩
  · cases h

/-- A thread that was not joined before is joined. -/
theorem nodup_callJoin {id : Option ThreadId} (hs : s.joins.Nodup) (hid : id ∉ s.joins) : (s.callJoin id).joins.Nodup := by
  refine List.nodup_append.mpr ⟨hs, by simp, ?_⟩
  intro old hold new hnew h
  exact hid (List.mem_singleton.mp hnew ▸ h ▸ hold)

/-- A thread that was created is joined. -/
theorem created_callJoin {thread : ThreadId} (hs : ∀ id ∈ s.joins, ∃ thread ∈ s.created, id = some thread)
    (hthread : thread ∈ s.created) : ∀ id ∈ (s.callJoin (some thread)).joins, ∃ thread ∈ s.created, id = some thread := by
  intro id hid
  rcases List.mem_append.mp hid with hid | hid
  · exact hs id hid
  · exact ⟨thread, hthread, List.mem_singleton.mp hid⟩

/-- The thread of `init_start` calls `pthread_join`. -/
theorem JoinsSoFar.playJoins (hs : JoinsSoFar s) {c : StartCall} {thread : ChannelThread} (hstarts : s.starts = [c])
    (hplay : c.play = .join thread) (hcreated : .channel thread 0 ∈ s.created) :
    JoinsSoFar ((s.callJoin (some (.channel thread 0))).setPlay 0 (.wait thread (some (.channel thread 0)))) := by
  have hcall : s.call = c := by rw [call, hstarts]; rfl
  have hcall' : ((s.callJoin (some (.channel thread 0))).setPlay 0 (.wait thread (some (.channel thread 0)))).call.play =
      .wait thread (some (.channel thread 0)) := by simp [call, callJoin, setPlay, hstarts]
  have hrank : s.call.play.rank = 2 * thread.rank := by rw [hcall, hplay]; rfl
  have hfresh : some (.channel thread 0) ∉ s.joins := by
    intro hmem
    have := hs.channel thread 0 hmem
    omega
  refine ⟨hs.stops, created_callJoin hs.created hcreated, nodup_callJoin hs.once hfresh, ?_, ?_, ?_, ?_, ?_, hs.waitingPlay, ?_,
    hs.deleted⟩
  · intro hid
    exact hs.prepare (by simpa [callJoin, setPlay] using hid)
  · intro i hid
    exact hs.play i (by simpa [callJoin, setPlay] using hid)
  · intro u i hid
    rw [hcall', PlayPlace.rank]
    rcases List.mem_append.mp hid with hid | hid
    · have := hs.channel u i hid
      omega
    · obtain ⟨rfl, -⟩ := ThreadId.channel.inj (Option.some.inj (List.mem_singleton.mp hid))
      omega
  · intro u hu
    rw [hcall', PlayPlace.rank] at hu
    exact hs.joined u (by omega)
  · intro u id hu
    rw [hcall'] at hu
    obtain ⟨rfl, rfl⟩ := PlayPlace.wait.inj hu
    rfl
  · intro hstop
    have hended := hs.playEnded hstop
    rw [hcall, hplay] at hended
    cases hended

/-- `pthread_join` comes back in the thread of `init_start`. -/
theorem JoinsSoFar.playJoined (hs : JoinsSoFar s) {c : StartCall} {thread : ChannelThread} {id : Option ThreadId}
    (hstarts : s.starts = [c]) (hplay : c.play = .wait thread id) :
    JoinsSoFar ({ s with joined := s.joined ++ id.toList }.setPlay 0 (thread.next.elim .ended .join)) := by
  have hcall : s.call = c := by rw [call, hstarts]; rfl
  have hcall' : ({ s with joined := s.joined ++ id.toList }.setPlay 0 (thread.next.elim .ended .join)).call.play =
      thread.next.elim .ended .join := by simp [call, setPlay, hstarts]
  have hrank : s.call.play.rank = 2 * thread.rank + 1 := by rw [hcall, hplay]; rfl
  have hrank' := thread.rank_next.2
  obtain rfl : id = some (.channel thread 0) := hs.waiting thread id (by rw [hcall, hplay])
  refine ⟨hs.stops, hs.created, hs.once, hs.prepare, hs.play, ?_, ?_, ?_, hs.waitingPlay, ?_, hs.deleted⟩
  · intro u i hid
    have := hs.channel u i hid
    rw [hcall']
    omega
  · intro u hu
    rw [hcall', hrank'] at hu
    by_cases hut : u = thread
    · subst hut
      exact List.mem_append_right _ (List.mem_singleton_self _)
    · have hne : u.rank ≠ thread.rank := fun h => hut (ChannelThread.eq_of_rank h)
      exact List.mem_append_left _ (hs.joined u (by omega))
  · intro u id hu
    rw [hcall'] at hu
    cases hnext : thread.next <;> rw [hnext] at hu <;> cases hu
  · intro hstop
    have hended := hs.playEnded hstop
    rw [hcall, hplay] at hended
    cases hended

/-- What a step of the thread of `init_start` does. -/
theorem play_step (hi : IdsWritten s) (hs : JoinsSoFar s) {c : StartCall} (hstarts : s.starts = [c])
    (h : s.initStart 0 c.play = some s') : IdsWritten s' ∧ JoinsSoFar s' := by
  have hcall : s.call = c := by rw [call, hstarts]; rfl
  unfold initStart at h
  split at h
  · rename_i hplay
    obtain rfl := Option.some.inj h
    refine ⟨hi.setPlay hstarts (by simp [hplay]) (by simp), hs.of_kept ⟨rfl, rfl, rfl, rfl, ?_, ?_, ?_, ?_⟩⟩
    all_goals simp [call, setPlay, hstarts, hplay, PlayPlace.rank, ChannelThread.rank]
  · rename_i thread hplay
    split at h
    · obtain rfl := Option.some.inj h
      exact ⟨hi.of_same rfl rfl Iff.rfl rfl rfl (fun _ _ => id), hs.of_kept (.of_play rfl rfl rfl rfl (List.Subset.refl _) rfl)⟩
    · rename_i ids hids
      obtain rfl := Option.some.inj h
      have hreturned : s.call.caller = .returned := by
        by_contra hne
        have hnot := hi.play.mpr hne
        rw [hcall, hplay] at hnot
        cases hnot
      have hpid : ids.pid thread = some (.channel thread 0) := by
        rw [hi.pid thread ids hids, hreturned]
        exact if_pos (Nat.lt_succ_of_lt thread.rank_lt)
      rw [hpid]
      exact ⟨(hi.callJoin _).setPlay hstarts (by simp [hplay]) (by simp),
        hs.playJoins hstarts hplay (hi.pidCreated thread ids _ hids hpid)⟩
  · rename_i thread id hplay
    obtain ⟨t, ht, rfl⟩ := Option.map_eq_some_iff.mp h
    obtain ⟨-, rfl⟩ := returnJoin_eq ht
    refine ⟨(hi.joined _).setPlay hstarts (by simp [hplay]) ?_, hs.playJoined hstarts hplay⟩
    cases thread.next <;> exact PlayPlace.noConfusion
  · cases h
  · cases h

/-- The thread of `init_stop` goes on, and calls no `pthread_join`. -/
theorem JoinsSoFar.stopGoesOn (hs : JoinsSoFar s) (place : StopPlace) (hstops : s'.stops = [place]) (hcall : s'.call = s.call)
    (hcreated : s'.created = s.created) (hjoins : s'.joins = s.joins) (hjoined : s.joined ⊆ s'.joined)
    (hrank : s.stopper.rank ≤ place.rank) (hwait : ∀ id, place ≠ .waitPlay id)
    (hended : 4 ≤ place.rank → s.call.play = .ended) (hdeleted : s'.deleted ≠ [] → 4 ≤ place.rank) : JoinsSoFar s' := by
  have hstopper : s'.stopper = place := by rw [stopper, hstops]; rfl
  refine ⟨by rw [hstops]; exact Nat.le_refl 1, ?_, ?_, ?_, ?_, ?_, ?_, ?_, ?_, ?_, ?_⟩
  · rw [hjoins, hcreated]
    exact hs.created
  · rw [hjoins]
    exact hs.once
  · rw [hjoins, hstopper]
    exact fun hid => (hs.prepare hid).trans hrank
  · rw [hjoins, hstopper]
    exact fun i hid => (hs.play i hid).trans hrank
  · rw [hjoins, hcall]
    exact hs.channel
  · rw [hcall]
    exact fun thread hthread => hjoined (hs.joined thread hthread)
  · rw [hcall]
    exact hs.waiting
  · rw [hstopper]
    exact fun id hid => absurd hid (hwait id)
  · rw [hstopper, hcall]
    exact hended
  · rw [hstopper]
    exact hdeleted

/-- The thread of `init_stop` calls `pthread_join`. -/
theorem JoinsSoFar.stopJoins (hs : JoinsSoFar s) {thread : ThreadId} {place : StopPlace} (hstops : s.stops.length = 1)
    (hcreated : thread ∈ s.created) (hrank : s.stopper.rank < place.rank) (hle : place.rank ≤ 3)
    (hthread : thread = .prepare ∧ s.stopper.rank = 0 ∨ thread = .play 0 ∧ s.stopper.rank = 2 ∧ place.rank = 3)
    (hwait : ∀ id, place = .waitPlay id → id = some (.play 0)) : JoinsSoFar ((s.callJoin (some thread)).setStop 0 place) := by
  have hstopper : ((s.callJoin (some thread)).setStop 0 place).stopper = place := by
    obtain ⟨old, hold⟩ := List.length_eq_one_iff.mp hstops
    simp [stopper, setStop, callJoin, hold]
  have hfresh : some thread ∉ s.joins := by
    intro hmem
    rcases hthread with ⟨rfl, hzero⟩ | ⟨rfl, htwo, -⟩
    · have := hs.prepare hmem
      omega
    · have := hs.play 0 hmem
      omega
  refine ⟨by simp [setStop, callJoin, hstops], created_callJoin hs.created hcreated, nodup_callJoin hs.once hfresh, ?_, ?_, ?_,
    hs.joined, hs.waiting, ?_, ?_, ?_⟩
  · rw [hstopper]
    omega
  · intro i hid
    rw [hstopper]
    rcases List.mem_append.mp hid with hid | hid
    · have := hs.play i hid
      omega
    · obtain rfl := Option.some.inj (List.mem_singleton.mp hid)
      rcases hthread with ⟨h, -⟩ | ⟨-, -, h⟩
      · cases h
      · omega
  · intro u i hid
    rcases List.mem_append.mp hid with hid | hid
    · exact hs.channel u i hid
    · obtain rfl := Option.some.inj (List.mem_singleton.mp hid)
      rcases hthread with ⟨h, -⟩ | ⟨h, -⟩ <;> cases h
  · rw [hstopper]
    exact hwait
  · rw [hstopper]
    omega
  · intro hdeleted
    have := hs.deleted hdeleted
    omega

/-- The thread of `init_start` has returned. -/
theorem play_of_hasEnded (h : s.hasEnded (.play 0) = true) : s.call.play = .ended := by
  unfold hasEnded at h
  unfold call
  cases hstarts : s.starts with
  | nil =>
    rw [hstarts] at h
    cases h
  | cons c rest =>
    rw [hstarts] at h
    exact of_decide_eq_true h

/-- `DELETE` writes no id and joins no thread. -/
theorem deleteChannel_eq (s : Joins) (kind : Kind) : (s.deleteChannel kind).starts = s.starts ∧
    (s.deleteChannel kind).stops = s.stops ∧ (s.deleteChannel kind).pid_play = s.pid_play ∧
    (s.deleteChannel kind).created = s.created ∧ (s.deleteChannel kind).joins = s.joins ∧
    (s.deleteChannel kind).joined = s.joined := by
  unfold deleteChannel
  split
  · exact ⟨rfl, rfl, rfl, rfl, rfl, rfl⟩
  · cases kind <;> exact ⟨rfl, rfl, rfl, rfl, rfl, rfl⟩

/-- The channels that are left are those there were. -/
theorem channel_deleteChannel {kind k : Kind} {c : ChannelIds} (h : (s.deleteChannel kind).channel k = some c) :
    s.channel k = some c := by
  unfold deleteChannel at h
  split at h
  · exact h
  · have hchannel : (s.setChannel kind none).channel k = some c := h
    rw [channel_setChannel] at hchannel
    split at hchannel
    · cases hchannel
    · exact hchannel

/-- The thread of `init_stop` deletes a channel. -/
theorem delete_step (hi : IdsWritten s) (hs : JoinsSoFar s) {place next : StopPlace} (kind : Kind) (hstops : s.stops = [place])
    (hplace : 4 ≤ place.rank) (hnext : next.rank = place.rank + 1) (hwait : ∀ id, next ≠ .waitPlay id) :
    IdsWritten ((s.deleteChannel kind).setStop 0 next) ∧ JoinsSoFar ((s.deleteChannel kind).setStop 0 next) := by
  obtain ⟨hstarts, hstops', hpid, hcreated, hjoins, hjoined⟩ := deleteChannel_eq s kind
  have hstopper : s.stopper = place := by rw [stopper, hstops]; rfl
  have hcall : (s.deleteChannel kind).call = s.call := by rw [call, hstarts, call]
  constructor
  · exact hi.of_same (by rw [setStop, hstarts]) (congrArg StartCall.caller hcall) (by rw [← hcall]; rfl) hpid hcreated
      fun _ _ => channel_deleteChannel
  · refine hs.stopGoesOn next (by simp [setStop, hstops', hstops]) hcall hcreated hjoins (by simp [setStop, hjoined]) ?_ hwait ?_ ?_
    · rw [hstopper]
      omega
    · intro _
      exact hs.playEnded (hstopper ▸ hplace)
    · intro _
      omega

/-- What a step of the thread of `init_stop` does, if `start` has returned when it comes to `pid_play`. -/
theorem stop_step (hi : IdsWritten s) (hs : JoinsSoFar s) {place : StopPlace} (hstops : s.stops = [place])
    (hreturned : place = .joinPlay → s.call.caller = .returned) (h : s.initStop 0 place = some s') :
    IdsWritten s' ∧ JoinsSoFar s' := by
  have hstopper : s.stopper = place := by rw [stopper, hstops]; rfl
  unfold initStop at h
  split at h
  · obtain rfl := Option.some.inj h
    exact ⟨(hi.callJoin _).setStop _, hs.stopJoins (by rw [hstops]; rfl) hi.prepareCreated (by rw [hstopper]; decide)
      (by decide) (Or.inl ⟨rfl, by rw [hstopper]; rfl⟩) (by simp)⟩
  · obtain ⟨t, ht, rfl⟩ := Option.map_eq_some_iff.mp h
    obtain ⟨-, rfl⟩ := returnJoin_eq ht
    exact ⟨(hi.joined _).setStop _, hs.stopGoesOn .joinPlay (by simp [setStop, hstops]) rfl rfl rfl
      (List.subset_append_left _ _) (by rw [hstopper]; decide) (by simp) (by simp [StopPlace.rank])
      (fun hdel => by simpa [hstopper, StopPlace.rank] using hs.deleted hdel)⟩
  · obtain rfl := Option.some.inj h
    have hpid : s.pid_play = some (.play 0) := by rw [hi.pid_play, if_pos (hreturned rfl)]
    rw [hpid]
    exact ⟨(hi.callJoin _).setStop _, hs.stopJoins (by rw [hstops]; rfl) (hi.playCreated _ hpid)
      (by rw [hstopper]; simp [StopPlace.rank]) (Nat.le_refl 3) (Or.inr ⟨rfl, by rw [hstopper]; rfl, rfl⟩)
      (fun id hid => (StopPlace.waitPlay.inj hid).symm)⟩
  · rename_i id
    obtain ⟨t, ht, rfl⟩ := Option.map_eq_some_iff.mp h
    obtain ⟨hended, rfl⟩ := returnJoin_eq ht
    obtain rfl : id = some (.play 0) := hs.waitingPlay id hstopper
    have hplay : s.call.play = .ended := play_of_hasEnded hended
    exact ⟨(hi.joined _).setStop _, hs.stopGoesOn .deleteVideo (by simp [setStop, hstops]) rfl rfl rfl
      (List.subset_append_left _ _) (by rw [hstopper]; simp [StopPlace.rank]) (by simp) (fun _ => hplay)
      (fun _ => Nat.le_refl 4)⟩
  · obtain rfl := Option.some.inj h
    exact delete_step hi hs .video hstops (by decide) rfl (by simp)
  · obtain rfl := Option.some.inj h
    exact delete_step hi hs .audio hstops (by decide) rfl (by simp)
  · cases h

/-! ## Runs -/

/-- What holds along a run whose calls come in order. -/
structure InOrder (s : Joins) : Prop where
  ids : IdsWritten s
  joins : JoinsSoFar s

namespace InOrder

theorem new : InOrder Joins.new := by
  have hnone : ∀ kind, Joins.new.channel kind = none := fun kind => by cases kind <;> rfl
  refine ⟨⟨by decide, by decide, rfl, ?_, by decide, ?_, ?_, ?_⟩, ⟨by decide, ?_, by decide, ?_, ?_, ?_, ?_, ?_, ?_, ?_, ?_⟩⟩
  · intro thread c hc
    rw [hnone] at hc
    cases hc
  · intro id hid
    cases hid
  · intro thread c id hc
    rw [hnone] at hc
    cases hc
  · intro thread i hthread
    cases List.mem_singleton.mp hthread
  all_goals simp [Joins.new, call, stopper, StartCall.new, StopPlace.rank, PlayPlace.rank]

/-- A step that only moves the prepare thread, ends a thread of a channel or crashes. -/
theorem of_same (hs : InOrder s) (hi : IdsWritten s') (hstarts : s'.starts = s.starts) (hstops : s'.stops = s.stops)
    (hjoins : s'.joins = s.joins) (hjoined : s'.joined = s.joined) (hdeleted : s'.deleted = s.deleted)
    (hcreated : s'.created = s.created) : InOrder s' := by
  have hcall : s'.call = s.call := by rw [call, hstarts, call]
  exact ⟨hi, hs.joins.of_kept (.of_play hstops hjoins hjoined hdeleted (hcreated ▸ List.Subset.refl _) (by rw [hcall]))⟩

/-- Only the prepare thread moves. -/
theorem setPrepare (hs : InOrder s) (prepare : PreparePlace) : InOrder { s with prepare := prepare } :=
  hs.of_same (hs.ids.of_same rfl rfl Iff.rfl rfl rfl fun _ _ => id) rfl rfl rfl rfl rfl rfl

/-- The first call of `start`. -/
theorem callStart (hs : InOrder s) (hstarts : s.starts = []) : InOrder s.callStart := by
  have hcall : s.callStart.call = s.call := by simp [call, Joins.callStart, hstarts]
  have hi := hs.ids
  refine ⟨⟨by simp [Joins.callStart, hstarts], ?_, ?_, ?_, hi.prepareCreated, hi.playCreated, hi.pidCreated, hi.firstCall⟩,
    hs.joins.of_kept (.of_play rfl rfl rfl rfl (List.Subset.refl _) (by rw [hcall]))⟩
  · rw [hcall]
    exact hi.play
  · rw [hcall]
    exact hi.pid_play
  · rw [hcall]
    exact hi.pid

/-- One step. -/
theorem step {a : JoinsAct} (hs : InOrder s) (ha : calledInOrder s a = true) (h : s.step a = some s') : InOrder s' := by
  have hi := hs.ids
  unfold Joins.step at h
  split at h
  · cases h
  unfold act at h
  split at h
  case _ kind =>
    split at h
    · obtain rfl := Option.some.inj h
      have hmade := hi.makeChannel (of_decide_eq_true ha) kind
      cases kind <;> exact hs.of_same hmade rfl rfl rfl rfl rfl rfl
    · cases h
  case _ =>
    split at h
    · obtain rfl := Option.some.inj h
      exact hs.setPrepare _
    · cases h
  case _ =>
    split at h
    · obtain rfl := Option.some.inj h
      exact hs.setPrepare _
    · cases h
  case _ own =>
    split at h
    · obtain rfl := Option.some.inj h
      cases own with
      | true => exact (hs.callStart (of_decide_eq_true ha)).setPrepare _
      | false => exact hs.setPrepare _
    · cases h
  case _ =>
    split at h
    · split at h
      · obtain rfl := Option.some.inj h
        exact hs.setPrepare _
      · cases h
    · cases h
  case _ =>
    obtain rfl := Option.some.inj h
    exact hs.callStart (of_decide_eq_true ha)
  case _ =>
    obtain rfl := Option.some.inj h
    have hstops : s.stops = [] := of_decide_eq_true ha
    refine ⟨hi.of_same rfl rfl Iff.rfl rfl rfl fun _ _ => id, hs.joins.stopGoesOn .joinPrepare (by simp [hstops]) rfl rfl rfl
      (List.Subset.refl _) ?_ (by simp) (by simp [StopPlace.rank]) ?_⟩
    · simp [stopper, hstops]
    · intro hdeleted
      simpa [stopper, hstops] using hs.joins.deleted hdeleted
  case _ i =>
    obtain ⟨c, hc, hstart⟩ := Option.bind_eq_some_iff.mp h
    obtain ⟨rfl, hstarts⟩ := eq_singleton hi.starts hc
    obtain ⟨hi', hkept⟩ := start_step hi hstarts hstart
    exact ⟨hi', hs.joins.of_kept hkept⟩
  case _ i =>
    obtain ⟨c, hc, hplay⟩ := Option.bind_eq_some_iff.mp h
    obtain ⟨rfl, hstarts⟩ := eq_singleton hi.starts hc
    obtain ⟨hi', hj'⟩ := play_step hi hs.joins hstarts hplay
    exact ⟨hi', hj'⟩
  case _ i =>
    obtain ⟨place, hplace, hstop⟩ := Option.bind_eq_some_iff.mp h
    obtain ⟨rfl, hstops⟩ := eq_singleton hs.joins.stops hplace
    have hreturned : place = .joinPlay → s.call.caller = .returned := by
      rintro rfl
      exact hi.returned_iff.mp (of_decide_eq_true ha hplace)
    obtain ⟨hi', hj'⟩ := stop_step hi hs.joins hstops hreturned hstop
    exact ⟨hi', hj'⟩
  case _ thread i =>
    split at h
    · obtain rfl := Option.some.inj h
      exact hs.of_same (hi.of_same rfl rfl Iff.rfl rfl rfl fun _ _ => id) rfl rfl rfl rfl rfl rfl
    · cases h

end InOrder

/-- Along such a run only threads that exist are joined. -/
theorem InOrder.existing (hs : InOrder s) : JoinsExisting s := by
  refine ⟨hs.joins.created, hs.joins.once, ?_⟩
  intro kind hkind thread i _ hthread
  obtain rfl := hs.ids.firstCall thread i hthread
  have hplay : s.call.play = .ended := hs.joins.playEnded (hs.joins.deleted (List.ne_nil_of_mem hkind))
  have hrank := thread.rank_lt
  exact hs.joins.joined thread (by rw [hplay, PlayPlace.rank]; omega)

/-- The runs whose calls come in order. -/
theorem inOrder_of_reachable (h : (lts.restrict fun s a => calledInOrder s a = true).Reachable s) : InOrder s := by
  refine Lts.Reachable.restrict_invariant ?_ (fun s a s' _ ha hs hstep => hs.step ha hstep) h
  rintro s rfl
  exact InOrder.new

end Joins

/-- If `start` is called once, after the last channel was made, and has returned when `init_stop` comes to `pid_play`, and `stop`
is called once, only threads that exist are joined. And where everything came in order so far, the join of `pid_play` is one
of a thread that exists exactly if `start` has returned. -/
theorem existing_threads_joined {s : Joins} (h : (Joins.lts.restrict fun s a => calledInOrder s a = true).Reachable s) :
    JoinsExisting s ∧ ∀ i s', s.stops[i]? = some .joinPlay → s.step (.stop i) = some s' →
      (JoinsExisting s' ↔ s.starts.any (·.caller = .returned) = true) := by
  have hs := Joins.inOrder_of_reachable h
  refine ⟨hs.existing, ?_⟩
  intro i s' hplace hstep
  constructor
  · intro hexisting
    by_contra hreturned
    have hpid : s.pid_play = none := by
      rw [hs.ids.pid_play, if_neg (fun hc => hreturned (hs.ids.returned_iff.mpr hc))]
    have hjoins : none ∈ s'.joins := by
      unfold Joins.step at hstep
      split at hstep
      · cases hstep
      · obtain ⟨place, hplace', hstop⟩ := Option.bind_eq_some_iff.mp hstep
        obtain rfl := Option.some.inj (hplace.symm.trans hplace')
        obtain rfl := Option.some.inj hstop
        exact List.mem_append_right _ (List.mem_singleton.mpr hpid.symm)
    obtain ⟨thread, -, hnone⟩ := hexisting.created none hjoins
    cases hnone
  · intro hreturned
    exact (hs.step (by simp [calledInOrder, hreturned]) hstep).existing

/-- The life of a player with both channels, from `prepare` to the end of `init_stop`. -/
def wholeLifeActs : List JoinsAct :=
  [.makeChannel .video, .makeChannel .audio, .onPrepare, .listener true, .start 0, .start 0, .start 0, .start 0, .start 0,
    .started, .callStop, .stop 0, .stop 0, .stop 0, .play 0, .play 0, .returns (.decode .video) 0, .play 0, .play 0,
    .returns (.output .video) 0, .play 0, .play 0, .returns (.decode .audio) 0, .play 0, .play 0, .returns (.output .audio) 0,
    .play 0, .stop 0, .stop 0, .stop 0]

/-- There it is: both channels are deleted, and the six threads were joined. -/
theorem existing_threads_joined_whole_life : ∃ s : Joins, s.deleted = [.video, .audio] ∧ s.joins.length = 6 ∧
    JoinsExisting s := by
  have hrun : (Lts.replayIf Joins.step calledInOrder Joins.new wholeLifeActs).map (fun s => (s.deleted, s.joins.length)) =
      some ([.video, .audio], 6) := by decide
  obtain ⟨s, hs, hrun⟩ := Option.map_eq_some_iff.mp hrun
  obtain ⟨hdeleted, hjoins⟩ := Prod.mk.inj hrun
  have hr := Lts.replayIf_reachable (L := Joins.lts) (fun _ _ _ => id) (fun _ _ => id) _ (.init rfl) hs
  exact ⟨s, hdeleted, hjoins, (existing_threads_joined hr).1⟩

end LibraLive
