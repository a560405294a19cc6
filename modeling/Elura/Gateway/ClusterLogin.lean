import Elura.Gateway.ClusterSchedule
import Elura.Gateway.ClusterStep

/-!
Who is left of a user's sessions. A login event names the session to keep, but does not say which
sessions are older; so the newest session stays only if no event of an older login arrives after
it has logged in.
-/

namespace Elura

open List

open GatewayServer (loginEvent)

theorem loginEvent_validate {identity : Identity} (valid : identity.validate = .ok ())
    (own : Uuid) : (loginEvent identity own).validate = .ok () := by
  unfold Identity.validate at valid
  split_ifs at valid with known
  refine if_neg ?_
  rintro (zero | zero | zero | long | ⟨other, _⟩)
  · exact known (.inr (.inr (.inl zero)))
  · exact known (.inr (.inr (.inr (.inl zero))))
  · exact known (.inr (.inl zero))
  · exact absurd long (show ¬256 < "new login".utf8ByteSize by decide)
  · cases other

theorem GatewayServer.concerned_login {server : GatewayServer} {identity : Identity}
    {own session : Uuid} : server.Concerned (loginEvent identity own) session ↔
      session ∈ server.sessions ∧ session ≠ own ∧
        ∃ known, server.index.identities[session]? = some known ∧
          known.playerKey = identity.playerKey := by
  have selects (known : Identity) : (loginEvent identity own).selects session known = true ↔
      session ≠ own := by
    change decide (some own ≠ some session) = true ↔ session ≠ own
    rw [decide_eq_true_iff, ne_eq, Option.some.injEq, ne_comm]
  constructor
  · rintro ⟨local_, known, found, same, chosen⟩
    exact ⟨local_, (selects known).mp chosen, known, found, same⟩
  · rintro ⟨local_, different, known, found, same⟩
    exact ⟨local_, known, found, same, (selects known).mpr different⟩

theorem GatewayServer.handle_told {server : GatewayServer} {event : SessionControlEvent}
    (order : HashOrder Uuid) (valid : event.validate = .ok ())
    (accepts : ∀ session, server.Concerned event session → server.Accepts session)
    {session : Uuid} (concerned : server.Concerned event session) :
    ((handle order event).call server).2.Told session := by
  obtain ⟨after, outcome, served⟩ := @applySessionControlLocal_ok order _ _ valid accepts
  obtain ⟨handle, found, watched, _⟩ := accepts session concerned
  rw [GatewayServer.handle, Revocation.call_discard, outcome]
  exact served.told ((mem_selected order _ _ _).mpr concerned) found watched

theorem ConnectionContext.admitOnline_previous {context : ConnectionContext} {own session : Uuid}
    {identity : Identity} {leaseAt now : Nat} {directory : MemoryOnlineDirectory}
    {previous : List Uuid}
    (accepted : ((context.admitOnline own identity leaseAt now).call directory).1 = .ok previous)
    (member : session ∈ previous) :
    directory.single identity.playerKey = some session ∧ session ≠ own ∧
      context.online.any (·.duplicateLogin = .kickExisting) := by
  rcases context.admitOnline_cases own identity leaseAt now directory with
    ⟨_, _, refused, _⟩ | ⟨_, offline⟩ | ⟨online, configured, _, _, _, registered⟩
  · rw [refused] at accepted
    cases accepted
  · rw [offline] at accepted
    cases accepted
    exact absurd member not_mem_nil
  · rw [registered] at accepted
    cases accepted
    split at member
    · rename_i kicks
      obtain ⟨bound, different⟩ := Option.filter_eq_some_iff.mp (Option.mem_toList.mp member)
      refine ⟨((directory.single_purge now session _).mp bound).1, of_decide_eq_true different, ?_⟩
      rw [configured]
      exact decide_eq_true kicks
    · exact absurd member not_mem_nil

def ServePhase.acquires : ServePhase → Option TicketClaims
  | .handling (.acquiring claims) => some claims
  | _ => none

namespace Cluster

variable {ι : Type} {cluster after : Cluster ι} {user : PlayerKey} {newer older session : Uuid}

def Supersedes (cluster : Cluster ι) (user : PlayerKey) (newer older : Uuid) : Prop :=
  [(newer, user), (older, user)].Sublist cluster.logins

def Superseded (cluster : Cluster ι) (older : Uuid) : Prop :=
  ∃ user newer, cluster.Supersedes user newer older

def newest (cluster : Cluster ι) (user : PlayerKey) : Option Uuid :=
  (cluster.logins.find? (·.2 = user)).map Prod.fst

theorem Supersedes.logged (supersedes : cluster.Supersedes user newer older) :
    (newer, user) ∈ cluster.logins ∧ (older, user) ∈ cluster.logins :=
  ⟨supersedes.subset List.mem_cons_self,
    supersedes.subset (List.mem_cons_of_mem _ List.mem_cons_self)⟩

theorem Superseded.later (superseded : cluster.Superseded session)
    (history : cluster.logins <:+ after.logins) : after.Superseded session := by
  obtain ⟨user, newer, supersedes⟩ := superseded
  exact ⟨user, newer, supersedes.trans history.sublist⟩

theorem Wired.user_unique (wired : Wired cluster) {first second : PlayerKey}
    (known : (session, first) ∈ cluster.logins) (same : (session, second) ∈ cluster.logins) :
    first = second := by
  have equal := inj_on_of_nodup_map wired.distinct known same rfl
  exact congrArg Prod.snd equal

theorem newest_split (last : cluster.newest user = some session) :
    ∃ before rest, cluster.logins = before ++ (session, user) :: rest ∧
      ∀ other, (other, user) ∉ before := by
  obtain ⟨⟨own, owner⟩, found, rfl⟩ := Option.map_eq_some_iff.mp last
  obtain ⟨same, before, rest, split, none_⟩ := find?_eq_some_iff_append.mp found
  cases of_decide_eq_true same
  refine ⟨before, rest, split, fun other member => ?_⟩
  have differs := none_ _ member
  simp at differs

theorem supersedes_newest (last : cluster.newest user = some session)
    (logged : (older, user) ∈ cluster.logins) (different : older ≠ session) :
    cluster.Supersedes user session older := by
  obtain ⟨before, rest, split, none_⟩ := newest_split last
  rw [Supersedes, split]
  refine (singleton_sublist.mpr ?_).cons_cons _ |>.trans (sublist_append_right _ _)
  rw [split, mem_append, mem_cons] at logged
  rcases logged with early | same | later
  · exact absurd early (none_ older)
  · exact absurd (congrArg Prod.fst same) different
  · exact later

theorem Wired.not_superseded (wired : Wired cluster) (last : cluster.newest user = some session) :
    ¬cluster.Superseded session := by
  rintro ⟨owner, newer, supersedes⟩
  obtain ⟨before, rest, split, none_⟩ := newest_split last
  have known : (session, user) ∈ cluster.logins := by
    rw [split]
    exact mem_append_right _ mem_cons_self
  obtain rfl := wired.user_unique known supersedes.logged.2
  have distinct := wired.distinct.of_map
  rw [split] at distinct
  have fresh : (session, user) ∉ rest := (nodup_cons.mp (nodup_append.mp distinct).2.1).1
  rw [Supersedes, split] at supersedes
  obtain ⟨first, second, halves, inside, outside⟩ := sublist_append_iff.mp supersedes
  cases first with
  | cons =>
    obtain ⟨rfl, _⟩ := cons.inj halves
    exact none_ newer (inside.subset mem_cons_self)
  | nil =>
    rw [nil_append] at halves
    subst halves
    refine fresh ?_
    cases outside with
    | cons _ within => exact within.subset (mem_cons_of_mem _ mem_cons_self)
    | cons_cons _ within => exact within.subset mem_cons_self

variable {own : Uuid} {connection : Connection ι} {claims : TicketClaims} {previous : List Uuid}

section

variable (wired : Wired cluster) (found : cluster.connections own = some connection)
include wired found

theorem Wired.fresh (busy : connection.phase = .handling (.consuming claims previous))
    (user : PlayerKey) :
    (own, user) ∉ cluster.logins :=
  wired.not_logged found (((wired.ready own connection found).stage _ busy).1).1 user

theorem Wired.logged_in (busy : connection.phase = .handling (.publishing claims previous) ∨
      connection.phase = .handling (.kicking claims previous)) :
    (own, claims.identity.playerKey) ∈ cluster.logins ∧ claims.identity.validate = .ok () := by
  have known : connection.session.identity = some claims.identity := by
    rcases busy with busy | busy
    all_goals exact ((wired.ready own connection found).stage _ busy).2
  exact ⟨(wired.logged own _).mpr ⟨connection, claims.identity, found, known, rfl⟩,
    wired.valid own connection claims.identity found known⟩

end

structure Announced (cluster : Cluster ι) : Prop where
  wired : Wired cluster
  events : ∀ event, cluster.Published event → ∃ identity own, event = loginEvent identity own ∧
    (own, identity.playerKey) ∈ cluster.logins ∧ identity.validate = .ok ()

theorem Announced.start (store : MemoryReplayProtectionStore) (clock : Nat) :
    Announced (start store clock : Cluster ι) where
  wired := .start store clock
  events := by
    rintro event ⟨gateway, member⟩
    exact absurd member not_mem_nil

def Roomy (cluster : Cluster ι) : Action ι → Prop
  | .handleEvent gateway order event =>
    ∀ session ∈ (cluster.servers gateway).selected order event,
      (cluster.servers gateway).Accepts session
  | _ => True

structure Followed (cluster : Cluster ι) : Prop extends Announced cluster where
  logged : ∀ own gateway, (own, gateway) ∈ cluster.handled → ∃ user, (own, user) ∈ cluster.logins
  dismissed : ∀ own user older connection, (own, connection.gateway) ∈ cluster.handled →
    cluster.Supersedes user own older → cluster.connections older = some connection →
      cluster.Told older ∨ cluster.Gone older

theorem Followed.start (store : MemoryReplayProtectionStore) (clock : Nat) :
    Followed (start store clock : Cluster ι) where
  toAnnounced := .start store clock
  logged := fun _ _ member => absurd member List.not_mem_nil
  dismissed := fun _ _ _ _ member => absurd member List.not_mem_nil

theorem Wired.reaches (wired : Wired cluster) (order : HashOrder Uuid) {identity : Identity}
    (logged : (own, identity.playerKey) ∈ cluster.logins) (valid : identity.validate = .ok ())
    (roomy : Roomy cluster (.handleEvent connection.gateway order (loginEvent identity own)))
    (supersedes : cluster.Supersedes user own older)
    (found : cluster.connections older = some connection) (still : connection.phase.Open) :
    ((GatewayServer.handle order (loginEvent identity own)).call
      (cluster.servers connection.gateway)).2.Told older := by
  obtain rfl := wired.user_unique supersedes.logged.1 logged
  obtain ⟨current, known, present, identified, user⟩ :=
    (wired.logged older _).mp supersedes.logged.2
  cases found.symm.trans present
  have serves : cluster.Serves connection.gateway older connection := ⟨found, rfl, still⟩
  obtain ⟨handle, listed, _⟩ := wired.listening _ _ _ serves
  have different : older ≠ own := by
    rintro rfl
    have twice := wired.distinct.of_map.sublist supersedes
    simp at twice
  refine GatewayServer.handle_told order (loginEvent_validate valid own)
    (fun session concerned =>
      roomy session ((GatewayServer.mem_selected order _ _ _).mpr concerned))
    (GatewayServer.concerned_login.mpr ⟨?_, different, known, ?_, user⟩)
  · rw [← Std.ExtTreeMap.isSome_getElem?_iff_mem, listed]
    rfl
  · rw [wired.indexed _ _ _ serves, identified]

/-- An event finds only older sessions, a login displaces only sessions that have
logged in as its user, and a session that has logged in leaves only if it was told
to. -/
def Orderly (cluster : Cluster ι) : Action ι → Prop
  | .handleEvent gateway order event =>
    ∀ session ∈ (cluster.servers gateway).selected order event,
      ∃ own ∈ event.keepSessionId, cluster.Supersedes event.playerKey own session
  | .serve own .progress =>
    ∀ connection ∈ cluster.connections own, ∀ claims ∈ connection.phase.acquires,
      ∀ session ∈ cluster.directory.single claims.identity.playerKey, session ≠ own →
        (session, claims.identity.playerKey) ∈ cluster.logins
  | .serve own .leave => (∃ login ∈ cluster.logins, login.1 = own) → cluster.Told own
  | _ => True

structure Ordered (cluster : Cluster ι) : Prop where
  wired : Wired cluster
  told : ∀ session, cluster.Told session → cluster.Superseded session
  gone : ∀ session user, cluster.Gone session → (session, user) ∈ cluster.logins →
    cluster.Superseded session
  carried : ∀ own connection claims previous session, cluster.connections own = some connection →
    connection.phase.carries = some (claims, previous) → session ∈ previous →
      (session, claims.identity.playerKey) ∈ cluster.logins ∧
        ∀ user, (own, user) ∈ cluster.logins →
          cluster.Supersedes claims.identity.playerKey own session
  pushed : ∀ request ∈ cluster.pushes, ∀ session, request.target = .disconnect session →
    cluster.Superseded session

theorem Ordered.start (store : MemoryReplayProtectionStore) (clock : Nat) :
    Ordered (start store clock : Cluster ι) where
  wired := .start store clock
  told := by
    rintro session ⟨connection, found, _⟩
    cases found
  gone := by
    rintro session user ⟨connection, found, _⟩
    cases found
  carried := fun _ _ _ _ _ found => by cases found
  pushed := fun _ member => absurd member not_mem_nil

theorem Ordered.kicks (ordered : Ordered cluster)
    (found : cluster.connections own = some connection)
    (busy : connection.phase = .handling (.kicking claims previous)) (member : session ∈ previous) :
    cluster.Superseded session := by
  obtain ⟨logged, _⟩ := ordered.wired.logged_in found (.inr busy)
  have carried := ordered.carried own connection claims previous session found
    (by rw [busy]; rfl) member
  exact ⟨_, own, carried.2 _ logged⟩

variable [DecidableEq ι] {contexts : ι → ConnectionContext} {action : Action ι}

theorem Step.history (taken : Step contexts cluster action after) :
    cluster.logins <:+ after.logins := by
  rcases taken.logins with same | ⟨own, connection, claims, previous, _, _, _, grown⟩
  · rw [same]
  · rw [grown]
    exact suffix_cons _ _

theorem Announced.step (announced : Announced cluster)
    (taken : Step contexts cluster action after) : Announced after := by
  refine ⟨announced.wired.step taken, ?_⟩
  intro event published
  rcases taken.published published with
    old | ⟨own, connection, claims, previous, found, busy, rfl⟩
  · obtain ⟨identity, own, rfl, logged, valid⟩ := announced.events event old
    exact ⟨identity, own, rfl, taken.history.subset logged, valid⟩
  · obtain ⟨logged, valid⟩ := announced.wired.logged_in found (.inl busy)
    exact ⟨claims.identity, own, rfl, taken.history.subset logged, valid⟩

theorem Step.told_or_gone (taken : Step contexts cluster action after)
    (either : cluster.Told session ∨ cluster.Gone session) :
    after.Told session ∨ after.Gone session :=
  either.elim taken.told (fun gone => .inr (taken.gone gone))

/-- What a logged session supersedes is settled. -/
theorem Step.supersedes (wired : Wired cluster) (taken : Step contexts cluster action after)
    {owner : PlayerKey} (logged : (own, owner) ∈ cluster.logins)
    (supersedes : after.Supersedes user own older) : cluster.Supersedes user own older := by
  rcases taken.logins with same | ⟨other, connection, claims, previous, _, found, busy, grown⟩
  · rwa [Supersedes, same] at supersedes
  · rw [Supersedes, grown] at supersedes
    cases supersedes with
    | cons _ within => exact within
    | cons_cons => exact absurd logged (wired.fresh found busy owner)

theorem Followed.step (followed : Followed cluster) (roomy : Roomy cluster action)
    (taken : Step contexts cluster action after) : Followed after := by
  have wired := followed.wired
  refine ⟨followed.toAnnounced.step taken, ?_, ?_⟩
  · intro own gateway member
    rcases taken.handled member with old | ⟨order, event, _, published, kept, _⟩
    · obtain ⟨user, logged⟩ := followed.logged own gateway old
      exact ⟨user, taken.history.subset logged⟩
    · obtain ⟨identity, owner, rfl, logged, _⟩ := followed.events event published
      cases kept
      exact ⟨_, taken.history.subset logged⟩
  · intro own user older later member supersedes present
    -- the older session was there before the step, on the same gateway
    have before {owner : PlayerKey} (logged : (own, owner) ∈ cluster.logins) :
        ∃ connection, cluster.Supersedes user own older ∧
          cluster.connections older = some connection ∧
          later.gateway = connection.gateway := by
      have settled := taken.supersedes wired logged supersedes
      obtain ⟨connection, _, found, _⟩ := (wired.logged older user).mp settled.logged.2
      obtain ⟨current, known, same⟩ := taken.kept found
      cases present.symm.trans known
      exact ⟨connection, settled, found, same⟩
    rcases taken.handled member with old | ⟨order, event, rfl, published, kept, outcome⟩
    · obtain ⟨owner, logged⟩ := followed.logged own _ old
      obtain ⟨connection, settled, found, same⟩ := before logged
      exact taken.told_or_gone (followed.dismissed own user older connection (same ▸ old) settled found)
    · obtain ⟨identity, owner, rfl, logged, valid⟩ := followed.events event published
      cases kept
      obtain ⟨connection, settled, found, same⟩ := before logged
      by_cases still : connection.phase.Open
      · refine .inl ⟨later, present, ?_⟩
        rw [outcome, same]
        exact wired.reaches order logged valid (same ▸ roomy) settled found still
      · exact .inr (taken.gone ⟨connection, found, ServePhase.not_running still⟩)

section Last

variable (ordered : Ordered cluster) (orderly : Orderly cluster action)
  (taken : Step contexts cluster action after)
include ordered orderly taken

theorem Ordered.told_step (told : after.Told session) :
    cluster.Superseded session := by
  rcases taken.told_cases told with before | signalled
  · exact ordered.told session before
  · cases action with
    | handleEvent _ order =>
      obtain ⟨own, _, supersedes⟩ :=
        orderly session ((GatewayServer.mem_selected order _ _ _).mpr signalled)
      exact ⟨_, own, supersedes⟩
    | kick =>
      obtain ⟨connection, claims, previous, found, busy, member, _⟩ := signalled
      exact ordered.kicks found busy member
    | deliverPush _ _ request =>
      exact ordered.pushed request signalled.1 session signalled.2
    | _ => exact signalled.elim

theorem Ordered.gone_step (gone : after.Gone session)
    (logged : (session, user) ∈ after.logins) : cluster.Superseded session := by
  have before (quiet : ∀ own connection claims previous, action = .serve own .progress →
      cluster.connections own = some connection →
      connection.phase = .handling (.consuming claims previous) → own ≠ session) :
      (session, user) ∈ cluster.logins := by
    rcases taken.logins with same | ⟨own, connection, claims, previous, act, found, busy, grown⟩
    · rwa [same] at logged
    · rw [grown] at logged
      rcases mem_cons.mp logged with new | old
      · exact absurd (congrArg Prod.fst new).symm (quiet own connection claims previous act found busy)
      · exact old
  rcases taken.gone_cases gone with was | rfl | told
  · refine ordered.gone session user was (before ?_)
    rintro own connection claims previous _ found busy rfl
    obtain ⟨current, present, ended⟩ := was
    cases found.symm.trans present
    rw [busy] at ended
    exact ended trivial
  · have logged := before (fun _ _ _ _ other => by cases other)
    exact ordered.told session (orderly ⟨_, logged, rfl⟩)
  · exact ordered.told session told

theorem Ordered.carried_step {later : Connection ι} (found : after.connections own = some later)
    (carries : later.phase.carries = some (claims, previous)) (member : session ∈ previous) :
    (session, claims.identity.playerKey) ∈ cluster.logins ∧
      ∀ user, (own, user) ∈ after.logins →
        after.Supersedes claims.identity.playerKey own session := by
  obtain ⟨connection, present, _, before | ⟨rfl, asking, _, leaseAt, reported⟩⟩ :=
    taken.carries found carries
  · obtain ⟨known, above⟩ := ordered.carried own connection claims previous session present before
      member
    refine ⟨known, fun user logged => ?_⟩
    rcases taken.logins with same | ⟨other, current, spent, reported, _, there, busy, grown⟩
    · rw [same] at logged
      exact (above user logged).trans taken.history.sublist
    · rw [grown] at logged
      rcases mem_cons.mp logged with new | old
      · cases new
        cases present.symm.trans there
        rw [busy] at before
        cases before
        rw [Supersedes, grown]
        exact (singleton_sublist.mpr known).cons_cons _
      · exact (above user old).trans taken.history.sublist
  · obtain ⟨bound, different, _⟩ := ConnectionContext.admitOnline_previous reported member
    have named := (ordered.wired.named own connection present).1
    rw [named] at different
    have known := orderly connection present claims (by rw [asking]; rfl) session bound different
    refine ⟨known, fun user logged => ?_⟩
    have anonymous := (((ordered.wired.ready own connection present).stage _ asking).1).1
    rcases taken.logins with same | ⟨other, current, spent, reported, act, there, busy, _⟩
    · rw [same] at logged
      exact absurd logged (ordered.wired.not_logged present anonymous user)
    · cases act
      cases present.symm.trans there
      cases asking.symm.trans busy

theorem Ordered.step : Ordered after := by
  refine ⟨ordered.wired.step taken, ?_, ?_, ?_, ?_⟩
  · intro session told
    exact (ordered.told_step orderly taken told).later taken.history
  · intro session user gone logged
    exact (ordered.gone_step orderly taken gone logged).later taken.history
  · intro own later claims previous session found carries member
    obtain ⟨known, above⟩ := ordered.carried_step orderly taken found carries member
    exact ⟨taken.history.subset known, above⟩
  · intro request member session kicks
    rcases taken.pushes member with
      old | ⟨own, connection, claims, previous, other, traceId, found, busy, among, _, _, rfl⟩
    · exact (ordered.pushed request old session kicks).later taken.history
    · cases kicks
      exact (ordered.kicks found busy among).later taken.history

end Last

def Unrivalled (cluster : Cluster ι) : Action ι → Prop
  | .handleEvent gateway order event => (cluster.servers gateway).selected order event = []
  | _ => True

def Undisturbed (cluster : Cluster ι) : Prop :=
  cluster.pushes = [] ∧ ∀ session, ¬cluster.Told session

theorem Undisturbed.step (undisturbed : Undisturbed cluster)
    (allows : ∀ gateway, (contexts gateway).online.all (·.duplicateLogin = .allowMultiple))
    (unrivalled : Unrivalled cluster action) (taken : Step contexts cluster action after) :
    Undisturbed after := by
  obtain ⟨none_, silent⟩ := undisturbed
  have lenient (gateway : ι) :
      ¬(contexts gateway).online.any (·.duplicateLogin = .kickExisting) := by
    have mode := allows gateway
    cases configured : (contexts gateway).online with
    | none => exact Bool.false_ne_true
    | some =>
      rw [configured] at mode
      simp only [Option.all_some, decide_eq_true_eq] at mode
      simp [mode]
  refine ⟨eq_nil_iff_forall_not_mem.mpr ?_, ?_⟩
  · intro request member
    rcases taken.pushes member with old | ⟨_, connection, _, _, _, _, _, _, _, kicks, _⟩
    · rw [none_] at old
      exact absurd old not_mem_nil
    · exact lenient connection.gateway kicks
  · intro session told
    rcases taken.told_cases told with before | signalled
    · exact silent session before
    · cases action with
      | handleEvent _ order =>
        have member := (GatewayServer.mem_selected order _ _ _).mpr signalled
        rw [unrivalled] at member
        exact absurd member not_mem_nil
      | kick =>
        obtain ⟨connection, _, _, _, _, _, kicks⟩ := signalled
        exact lenient connection.gateway kicks
      | deliverPush =>
        have member := signalled.1
        rw [none_] at member
        exact absurd member not_mem_nil
      | _ => exact signalled.elim

/-- Of the sessions of a user, none but the one that logged in last is left once its event has been
handled everywhere, if the sessions have room for it; that one is left if events arrive in the order
of the logins. Where several sessions are allowed, nobody is told to disconnect if no event finds a
session but its own. -/
theorem newest_login_wins (contexts : ι → ConnectionContext) (store : MemoryReplayProtectionStore)
    (clock : Nat) :
    (∀ cluster, RunWhen Roomy (Step contexts) (start store clock) cluster →
      ∀ user last, cluster.newest user = some last →
        (∀ gateway, (last, gateway) ∈ cluster.handled) →
        ∀ earlier, (earlier, user) ∈ cluster.logins → earlier ≠ last →
          ¬cluster.Connected earlier) ∧
    (∀ cluster, RunWhen Orderly (Step contexts) (start store clock) cluster →
      ∀ user last, cluster.newest user = some last → cluster.Connected last) ∧
    ((∀ gateway, (contexts gateway).online.all (·.duplicateLogin = .allowMultiple)) →
      ∀ cluster, RunWhen Unrivalled (Step contexts) (start store clock) cluster →
        ∀ session, ¬cluster.Told session) := by
  refine ⟨?_, ?_, ?_⟩
  · intro cluster run user last newest everywhere earlier logged different connected
    have followed : Followed cluster :=
      run.invariant (fun _ _ _ roomy taken followed => followed.step roomy taken) (.start store clock)
    obtain ⟨connection, found, running, silent⟩ := connected
    have either := followed.dismissed last user earlier connection (everywhere _)
      (supersedes_newest newest logged different) found
    rcases either with ⟨current, present, told⟩ | ⟨current, present, ended⟩
    · cases found.symm.trans present
      exact silent told
    · cases found.symm.trans present
      exact ended running
  · intro cluster run user last newest
    have ordered : Ordered cluster :=
      run.invariant (fun _ _ _ orderly taken ordered => ordered.step orderly taken) (.start store clock)
    have first := ordered.wired.not_superseded newest
    obtain ⟨before, rest, split, _⟩ := newest_split newest
    have logged : (last, user) ∈ cluster.logins := by
      rw [split]
      exact mem_append_right _ mem_cons_self
    obtain ⟨connection, _, found, _⟩ := (ordered.wired.logged last user).mp logged
    refine ⟨connection, found, ?_, ?_⟩
    · by_contra ended
      exact first (ordered.gone last user ⟨connection, found, ended⟩ logged)
    · intro told
      exact first (ordered.told last ⟨connection, found, told⟩)
  · intro allows cluster run
    have undisturbed : Undisturbed cluster := by
      refine run.invariant (fun _ _ _ unrivalled taken undisturbed =>
        undisturbed.step allows unrivalled taken) ⟨rfl, ?_⟩
      rintro session ⟨connection, found, _⟩
      cases found
    exact undisturbed.2

section Decide

instance (server : GatewayServer) (session : Uuid) : Decidable (server.Accepts session) :=
  inferInstanceAs (Decidable (∃ handle ∈ server.sessions[session]?, _ ∧ _))

instance (server : GatewayServer) (session : Uuid) : Decidable (server.Told session) :=
  inferInstanceAs (Decidable (∃ handle ∈ server.sessions[session]?, _ = _))

instance : (phase : ServePhase) → Decidable phase.Running
  | .waiting | .handling _ => isTrue trivial
  | .cleaning _ | .closed => isFalse id

variable (cluster : Cluster ι)

instance (session : Uuid) : Decidable (cluster.Told session) :=
  inferInstanceAs (Decidable (∃ connection ∈ cluster.connections session, GatewayServer.Told _ _))

instance (session : Uuid) : Decidable (cluster.Connected session) :=
  inferInstanceAs (Decidable (∃ connection ∈ cluster.connections session, _ ∧ ¬_))

instance (user : PlayerKey) (newer older : Uuid) : Decidable (cluster.Supersedes user newer older) :=
  inferInstanceAs (Decidable (List.Sublist _ _))

instance : (action : Action ι) → Decidable (Roomy cluster action)
  | .handleEvent .. => inferInstanceAs (Decidable (∀ session ∈ _, GatewayServer.Accepts _ _))
  | .elapse _ | .refill .. | .connect .. | .serve .. | .publish .. | .kick .. | .deliverPush .. =>
    isTrue trivial

instance : (action : Action ι) → Decidable (Orderly cluster action)
  | .handleEvent .. =>
    inferInstanceAs (Decidable (∀ session ∈ _, ∃ own ∈ _, Supersedes _ _ _ _))
  | .serve _ .progress =>
    inferInstanceAs (Decidable (∀ connection ∈ _, ∀ claims ∈ _, ∀ session ∈ _, _ → _ ∈ _))
  | .serve _ .leave => inferInstanceAs (Decidable ((∃ login ∈ _, _ = _) → Told _ _))
  | .serve _ (.elapse _) | .serve _ (.foreign _) | .serve _ (.receive _) | .serve _ .answer
  | .serve _ .cancel | .serve _ .disconnect | .serve _ (.renew _) | .serve _ .cleanup
  | .serve _ .cutOff | .elapse _ | .refill .. | .connect .. | .publish .. | .kick ..
  | .deliverPush .. => isTrue trivial

instance : (action : Action ι) → Decidable (Unrivalled cluster action)
  | .handleEvent .. => inferInstanceAs (Decidable (_ = _))
  | .elapse _ | .refill .. | .connect .. | .serve .. | .publish .. | .kick .. | .deliverPush .. =>
    isTrue trivial

end Decide

section Sample

def memberClaims (ticket : String) : TicketClaims :=
  { loginClaims with ticketId := ticket }

def memberFormat : TokenFormat where
  encode := fun credential =>
    if credential = .ticket (memberClaims "first") then "first"
    else if credential = .ticket (memberClaims "second") then "second" else "other"
  decodeTicket := fun payload =>
    if payload = "first" then some (memberClaims "first")
    else if payload = "second" then some (memberClaims "second") else none
  decodeHttp := fun _ => none
  sign := fun key _ => key
  encodeSignature := fun _ => "signature"
  decodeSignature := fun _ => some (List.replicate 32 7)
  decodeTicket_encode := by
    intro credential claims read
    split at read
    · rename_i same
      cases read
      exact same
    · split at read
      · rename_i same
        cases read
        exact same
      · cases read
  decodeHttp_encode := unread_http

def memberContext (mode : DuplicateLoginMode) : ConnectionContext where
  format := memberFormat
  tickets := loginService
  online := some { ConnectionContext.kickConfig with duplicateLogin := mode }

def counted : HashOrder Uuid where
  list := fun members => (List.range (members.sup id + 1)).filter (· ∈ members)
  nodup := fun members => List.nodup_range.filter _
  mem := by
    intro members session
    simp only [List.mem_filter, List.mem_range, decide_eq_true_eq, and_iff_right_iff_imp]
    intro member
    have bound : id session ≤ members.sup id := Finset.le_sup member
    exact Nat.lt_succ_of_le bound

def login (gateway : Bool) (session : Uuid) (ticket : String) : List (Action Bool) :=
  [.connect gateway session { frames := [], capacity := 8, closed := false },
    .serve session (.receive (.received (.ok ticket)))] ++
    List.replicate 6 (.serve session .progress) ++ [.publish session true]

def announce (session : Uuid) : List (Action Bool) :=
  [.handleEvent false counted (loginEvent loginIdentity session),
    .handleEvent true counted (loginEvent loginIdentity session)]

def timely : List (Action Bool) :=
  login true 1 "first.signature" ++ announce 1 ++ login false 2 "second.signature" ++ announce 2

def late : List (Action Bool) :=
  login true 1 "first.signature" ++ login false 2 "second.signature" ++ announce 1 ++ announce 2

def memberCluster (mode : DuplicateLoginMode) (actions : List (Action Bool)) : Cluster Bool :=
  (start .new ServeWorld.loginTime).performAll (fun _ => memberContext mode) actions

theorem member_run {mode : DuplicateLoginMode} {actions : List (Action Bool)}
    {allowed : Cluster Bool → Action Bool → Prop}
    (permitted : Permits (fun _ => memberContext mode) allowed (start .new ServeWorld.loginTime)
      actions) :
    RunWhen allowed (Step (fun _ => memberContext mode)) (start .new ServeWorld.loginTime)
      (memberCluster mode actions) :=
  performAll_run _ permitted

theorem timely_login_wins :
    (memberCluster .kickExisting timely).logins =
        [(2, loginIdentity.playerKey), (1, loginIdentity.playerKey)] ∧
      ¬(memberCluster .kickExisting timely).Connected 1 ∧
      (memberCluster .kickExisting timely).Connected 2 ∧
      ¬(memberCluster .allowMultiple (login true 1 "first.signature" ++ announce 1)).Told 1 := by
  obtain ⟨others, last, _⟩ :=
    newest_login_wins (fun _ : Bool => memberContext .kickExisting) .new ServeWorld.loginTime
  obtain ⟨_, _, several⟩ :=
    newest_login_wins (fun _ : Bool => memberContext .allowMultiple) .new ServeWorld.loginTime
  have logins : (memberCluster .kickExisting timely).logins =
      [(2, loginIdentity.playerKey), (1, loginIdentity.playerKey)] := by decide +kernel
  have newest : (memberCluster .kickExisting timely).newest loginIdentity.playerKey = some 2 := by
    rw [Cluster.newest, logins]
    decide
  refine ⟨logins, ?_, ?_, ?_⟩
  · refine others _ (member_run (by decide +kernel)) _ 2 newest (by decide +kernel) 1 ?_ (by decide)
    rw [logins]
    exact mem_cons_of_mem _ mem_cons_self
  · exact last _ (member_run (by decide +kernel)) _ 2 newest
  · exact several (by decide) _ (member_run (by decide +kernel)) 1

/-- Every event reaches every gateway, but the one of the first login arrives where
the second session has already logged in. The session that logged in last is told
to disconnect; where several sessions are allowed, both are. -/
theorem late_event_disconnects :
    (RunWhen (fun _ _ => True) (Step (fun _ => memberContext .kickExisting))
        (start .new ServeWorld.loginTime) (memberCluster .kickExisting late) ∧
      (∀ session ∈ [1, 2], ∀ gateway,
        (session, gateway) ∈ (memberCluster .kickExisting late).handled) ∧
      (memberCluster .kickExisting late).newest loginIdentity.playerKey = some 2 ∧
      ¬(memberCluster .kickExisting late).Connected 2) ∧
    RunWhen (fun _ _ => True) (Step (fun _ => memberContext .allowMultiple))
        (start .new ServeWorld.loginTime) (memberCluster .allowMultiple late) ∧
      (memberCluster .allowMultiple late).Told 1 ∧ (memberCluster .allowMultiple late).Told 2 := by
  refine ⟨⟨member_run (by decide +kernel), ?_⟩, member_run (by decide +kernel), ?_⟩
  · decide +kernel
  · decide +kernel

/-- In every run each gateway knows the connections it serves, and no others. -/
theorem connections_wired {allowed : Cluster ι → Action ι → Prop}
    {store : MemoryReplayProtectionStore} {clock : Nat}
    (run : RunWhen allowed (Step contexts) (start store clock) cluster) : Wired cluster :=
  run.invariant (fun _ _ _ _ taken wired => wired.step taken) (.start store clock)

theorem late_wired : Wired (memberCluster .kickExisting late) :=
  connections_wired (@member_run _ _ (fun _ _ => True) (by decide +kernel))

end Sample

end Cluster

end Elura
