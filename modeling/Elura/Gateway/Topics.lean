import Elura.Basis.Runs
import Elura.Gateway.PushDelivery

/-!
Topic memberships while sessions end. A join looks its session up in the index and updates the
topics later; the cleanup of a session takes it out of the index first and of the topics then.
-/

namespace Elura.Topics

open List

abbrev Table := String → Option (Finset Uuid)

namespace Table

def remove (session : Uuid) (sessions : Finset Uuid) : Option (Finset Uuid) :=
  if sessions.erase session = ∅ then none else some (sessions.erase session)

def join (table : Table) (session : Uuid) (topic : String) : Table :=
  Function.update table topic (some (insert session ((table topic).getD ∅)))

def leave (table : Table) (session : Uuid) (topic : String) : Table :=
  Function.update table topic ((table topic).bind (remove session))

def retain (table : Table) (session : Uuid) : Table :=
  fun topic => (table topic).bind (remove session)

def Has (table : Table) (session : Uuid) : Prop :=
  ∃ topic sessions, table topic = some sessions ∧ session ∈ sessions

variable {table : Table} {session other : Uuid} {topic place : String} {kept : Finset Uuid}

theorem bind_remove (found : (table topic).bind (remove session) = some kept) :
    kept ≠ ∅ ∧ ∃ sessions, table topic = some sessions ∧ kept = sessions.erase session := by
  obtain ⟨sessions, there, removed⟩ := Option.bind_eq_some_iff.mp found
  unfold remove at removed
  split at removed
  · cases removed
  · rename_i filled
    cases removed
    exact ⟨filled, sessions, there, rfl⟩

theorem update_eq_some {entry : Option (Finset Uuid)}
    (found : Function.update table topic entry place = some kept) :
    entry = some kept ∨ table place = some kept := by
  by_cases same : place = topic
  · subst same
    rw [Function.update_self] at found
    exact .inl found
  · rw [Function.update_of_ne same] at found
    exact .inr found

theorem has_join (has : (table.join session topic).Has other) :
    other = session ∨ table.Has other := by
  obtain ⟨place, sessions, found, member⟩ := has
  obtain new | old := update_eq_some found
  · cases new
    obtain same | member := Finset.mem_insert.mp member
    · exact .inl same
    · cases there : table topic with
      | none => simp [there] at member
      | some sessions => exact .inr ⟨topic, sessions, there, by simpa [there] using member⟩
  · exact .inr ⟨place, sessions, old, member⟩

theorem has_leave (has : (table.leave session topic).Has other) : table.Has other := by
  obtain ⟨place, sessions, found, member⟩ := has
  obtain new | old := update_eq_some found
  · obtain ⟨_, before, there, rfl⟩ := bind_remove new
    exact ⟨topic, before, there, Finset.mem_of_mem_erase member⟩
  · exact ⟨place, sessions, old, member⟩

theorem has_retain (has : (table.retain session).Has other) : other ≠ session ∧ table.Has other := by
  obtain ⟨place, sessions, found, member⟩ := has
  obtain ⟨_, before, there, rfl⟩ := bind_remove found
  obtain ⟨different, member⟩ := Finset.mem_erase.mp member
  exact ⟨different, place, before, there, member⟩

end Table

/-- A join or a leave that has not come to its end; `checked` once its session has been found. -/
structure Call where
  regionId : UInt32
  realmId : UInt32
  session : Uuid
  topic : String
  join : Bool
  checked : Bool
  deriving DecidableEq

inductive Cleanup
  | notStarted
  | unindexed
  | finished
  deriving DecidableEq

structure World where
  identities : Uuid → Option Identity
  table : Table
  calls : List Call
  cleanup : Uuid → Cleanup

inductive Action
  | authenticate (session : Uuid) (identity : Identity)
  | start (call : Call)
  | check (call : Call)
  | update (call : Call)
  | unindex (session : Uuid)
  | retain (session : Uuid)

def start : World where
  identities := fun _ => none
  table := fun _ => none
  calls := []
  cleanup := fun _ => .notStarted

def Call.admitted (call : Call) (world : World) : Prop :=
  call.topic ≠ "" ∧
    (world.identities call.session).any (GatewayServer.inRealm call.regionId call.realmId)

/-- Every lock is taken in a step of its own. -/
inductive Step (world : World) : Action → World → Prop
  | authenticate (session : Uuid) (identity : Identity)
      (serving : world.cleanup session = .notStarted) : Step world (.authenticate session identity)
        { world with identities := Function.update world.identities session (some identity) }
  | start (call : Call) (fresh : call.checked = false) : Step world (.start call)
      { world with calls := call :: world.calls }
  | pass (call : Call) (running : call ∈ world.calls) (unchecked : call.checked = false)
      (admitted : call.admitted world) : Step world (.check call)
        { world with calls := { call with checked := true } :: world.calls.erase call }
  | refuse (call : Call) (running : call ∈ world.calls) (unchecked : call.checked = false)
      (refused : ¬call.admitted world) : Step world (.check call)
        { world with calls := world.calls.erase call }
  | update (call : Call) (running : call ∈ world.calls) (checked : call.checked = true) :
      Step world (.update call) { world with
        table := if call.join then world.table.join call.session call.topic
          else world.table.leave call.session call.topic
        calls := world.calls.erase call }
  | unindex (session : Uuid) (serving : world.cleanup session = .notStarted) :
      Step world (.unindex session) { world with
        identities := Function.update world.identities session none
        cleanup := Function.update world.cleanup session .unindexed }
  | retain (session : Uuid) (unindexed : world.cleanup session = .unindexed) :
      Step world (.retain session) { world with
        table := world.table.retain session
        cleanup := Function.update world.cleanup session .finished }

/-- The cleanup of a session does not reach the topics while a join of it is between its two
locks. -/
def Calm (world : World) : Action → Prop
  | .retain session => ∀ call ∈ world.calls, call.session = session → call.join = true →
      call.checked = false
  | _ => True

structure Sound (world : World) : Prop where
  absent : ∀ session, world.cleanup session ≠ .notStarted → world.identities session = none
  gone : ∀ session, world.cleanup session = .finished → ¬world.table.Has session
  joins : ∀ call ∈ world.calls, world.cleanup call.session = .finished → call.join = true →
    call.checked = false

variable {world after : World} {action : Action}

theorem Step.tidy (taken : Step world action after)
    (tidy : ∀ topic, world.table topic ≠ some ∅) (topic : String) : after.table topic ≠ some ∅ := by
  cases taken with
  | authenticate | start | pass | refuse | unindex => exact tidy topic
  | update call =>
    intro empty
    dsimp only at empty
    split at empty
    · obtain new | old := Table.update_eq_some empty
      · exact Finset.insert_ne_empty _ _ (Option.some.inj new)
      · exact tidy topic old
    · obtain new | old := Table.update_eq_some empty
      · exact (Table.bind_remove new).1 rfl
      · exact tidy topic old
  | retain => exact fun empty => (Table.bind_remove empty).1 rfl

theorem Step.sound (taken : Step world action after) (calm : Calm world action)
    (sound : Sound world) : Sound after := by
  cases taken with
  | authenticate session identity serving =>
    refine ⟨fun other started => ?_, sound.gone, sound.joins⟩
    have different : other ≠ session := fun same => started (same ▸ serving)
    exact (Function.update_of_ne different _ _).trans (sound.absent other started)
  | start call fresh =>
    refine ⟨sound.absent, sound.gone, fun other member finished join => ?_⟩
    obtain rfl | member := mem_cons.mp member
    · exact fresh
    · exact sound.joins other member finished join
  | pass call running unchecked admitted =>
    refine ⟨sound.absent, sound.gone, fun other member finished join => ?_⟩
    obtain rfl | member := mem_cons.mp member
    · -- its session has been found in the index
      have known := admitted.2
      rw [sound.absent call.session (by rw [finished]; decide)] at known
      cases known
    · exact sound.joins other (mem_of_mem_erase member) finished join
  | refuse =>
    exact ⟨sound.absent, sound.gone, fun other member =>
      sound.joins other (mem_of_mem_erase member)⟩
  | update call running checked =>
    refine ⟨sound.absent, fun session finished has => ?_, fun other member =>
      sound.joins other (mem_of_mem_erase member)⟩
    dsimp only at has
    split at has
    · rename_i join
      obtain rfl | has := Table.has_join has
      · cases checked.symm.trans (sound.joins call running finished join)
      · exact sound.gone session finished has
    · exact sound.gone session finished (Table.has_leave has)
  | unindex session serving =>
    have before {other : Uuid} (finished : Function.update world.cleanup session .unindexed other =
        .finished) : world.cleanup other = .finished := by
      by_cases same : other = session
      · rw [same, Function.update_self] at finished
        cases finished
      · rwa [Function.update_of_ne same] at finished
    refine ⟨fun other started => ?_, fun other finished => sound.gone other (before finished),
      fun call member finished => sound.joins call member (before finished)⟩
    dsimp only at started ⊢
    by_cases same : other = session
    · rw [same, Function.update_self]
    · rw [Function.update_of_ne same] at started ⊢
      exact sound.absent other started
  | retain session unindexed =>
    have before {other : Uuid} {stage : Cleanup} (different : other ≠ session)
        (held : Function.update world.cleanup session .finished other = stage) :
        world.cleanup other = stage := (Function.update_of_ne different _ _).symm.trans held
    refine ⟨fun other started => ?_, fun other finished has => ?_, fun call member finished join => ?_⟩
    · by_cases same : other = session
      · rw [same]
        exact sound.absent session (by rw [unindexed]; decide)
      · exact sound.absent other (fun idle => started ((Function.update_of_ne same _ _).trans idle))
    · obtain ⟨different, has⟩ := Table.has_retain has
      exact sound.gone other (before different finished) has
    · by_cases same : call.session = session
      · exact calm call member same join
      · exact sound.joins call member (before same finished) join

/-- No run leaves an empty topic behind. A session whose cleanup has finished is in no topic if no
join of it was between its two locks when the cleanup came to the topics. -/
theorem cleaned_session_in_no_topic {allowed : World → Action → Prop}
    (run : RunWhen allowed Step start world) :
    (∀ topic, world.table topic ≠ some ∅) ∧
      ((∀ state action, allowed state action → Calm state action) →
        ∀ session, world.cleanup session = .finished → ¬world.table.Has session) := by
  refine ⟨run.invariant (fun _ _ _ _ taken => taken.tidy) (fun _ => nofun), fun calm => ?_⟩
  have sound : Sound world := (run.mono calm).invariant (fun _ _ _ calm taken => taken.sound calm)
    ⟨fun _ _ => rfl, fun _ finished => (nomatch finished), fun _ member => (nomatch member)⟩
  exact sound.gone

def roomCall : Call where
  regionId := 1
  realmId := 1
  session := 1
  topic := "room"
  join := true
  checked := false

def found : World where
  identities := Function.update (fun _ => none) 1 (some loginIdentity)
  table := fun _ => none
  calls := [{ roomCall with checked := true }]
  cleanup := fun _ => .notStarted

theorem run_found : RunWhen Calm Step start found := by
  have admitted : roomCall.admitted { start with
      identities := Function.update (fun _ => none) 1 (some loginIdentity)
      calls := [roomCall] } := ⟨by decide, rfl⟩
  exact (((RunWhen.refl start).take (.authenticate 1 loginIdentity rfl) trivial).take
    (.start roomCall rfl) trivial).take (.pass roomCall mem_cons_self rfl admitted) trivial

theorem cleaned_session_in_no_topic_room :
    ∃ world, RunWhen Calm Step start world ∧ world.cleanup 1 = .finished ∧
      ¬world.table.Has 1 := by
  have run := ((run_found.take (.update _ mem_cons_self rfl) trivial).take
    (.unindex 1 rfl) trivial).take (.retain 1 rfl) (by simp [Calm, found])
  exact ⟨_, run, rfl, (cleaned_session_in_no_topic run).2 (fun _ _ calm => calm) 1 rfl⟩

/-- A join that has found its session in the index enters it after the cleanup has finished. -/
theorem late_join_stays :
    ∃ world, RunWhen (fun _ _ => True) Step start world ∧ world.cleanup 1 = .finished ∧
      world.calls = [] ∧ world.table "room" = some {1} := by
  have run := (((run_found.mono (fun _ _ _ => trivial)).take (.unindex 1 rfl) trivial).take
    (.retain 1 rfl) trivial).take (.update _ mem_cons_self rfl) trivial
  exact ⟨_, run, rfl, rfl, rfl⟩

end Elura.Topics
