import Elura.Gateway.Cluster

/-!
Runs of a cluster that can be computed. Every action is performed where it is
possible, with policies that admit everybody and with leases as of now; where it is
not possible, nothing happens.
-/

namespace Elura

namespace HandleStage

def advance (context : ConnectionContext) (now : Nat) (gateway : Gateway) :
    HandleStage → Option (Gateway × HandleStage)
  | received request =>
    match context.verifyTicket gateway.session request now with
    | .error error => some (gateway, .finished (.error error))
    | .ok claims => some (gateway, .admitting claims)
  | admitting claims => some (gateway, .checkingVersion claims)
  | checkingVersion claims => some (gateway, .acquiring claims)
  | acquiring claims =>
    let answer := (context.admitOnline gateway.session.id claims.identity now now).call
      gateway.directory
    some ({ gateway with directory := answer.2 }, .acquired claims answer.1)
  | acquired claims (.ok previous) => some (gateway, .consuming claims previous)
  | acquired _ (.error error) => some (gateway, .finished (.error error))
  | consuming claims previous =>
    some (ConnectionContext.afterConsume gateway claims previous
      (claims.consume gateway.store (Duration.asSecs now)))
  | _ => none

theorem advance_step {context : ConnectionContext} {now : Nat} {gateway after : Gateway}
    {stage next : HandleStage} (advanced : stage.advance context now gateway = some (after, next)) :
    HandleStep context now gateway stage after next := by
  unfold advance at advanced
  split at advanced
  · split at advanced
    · rename_i refused
      cases advanced
      exact .refuse _ _ refused
    · rename_i verified
      cases advanced
      exact .verify _ _ verified
  · cases advanced
    exact .checkAdmission _ (.ok ())
  · cases advanced
    exact .checkVersion _ (.ok ())
  · cases advanced
    exact .acquire _ now le_rfl
  · cases advanced
    exact .accepted _ _
  · cases advanced
    exact .rejected _ _
  · obtain ⟨rfl, rfl⟩ := Prod.ext_iff.mp (Option.some.inj advanced)
    exact .consume _ _
  · cases advanced

theorem advance_quiet {context : ConnectionContext} {now : Nat} {gateway : Gateway}
    {stage : HandleStage} (sending : (ServePhase.handling stage).Sending) :
    stage.advance context now gateway = none := by
  unfold ServePhase.Sending at sending
  split at sending
  · rename_i same
    cases same
    rfl
  · rename_i same
    cases same
    rfl
  · exact sending.elim

end HandleStage

namespace ServeWorld

def perform (context : ConnectionContext) (world : ServeWorld) (action : Action) :
    Option ServeWorld :=
  match world.phase, action with
  | .waiting, .receive (.received request) =>
    if world.gateway.session.identity = none then
      some { world with phase := .handling (.received request) }
    else none
  | .handling stage, .progress =>
    (stage.advance context world.clock world.gateway).map (fun (gateway, next) =>
      { world with gateway, phase := .handling next })
  | .handling _, .cancel => some { world with phase := .waiting }
  | _, _ => none

theorem perform_step {context : ConnectionContext} {world after : ServeWorld} {action : Action}
    (performed : world.perform context action = some after) :
    Step context world action after ∧ action.Own ∧ action ≠ .disconnect ∧
      (action = .progress → ¬world.phase.Sending) := by
  unfold perform at performed
  split at performed
  · rename_i request idle
    split at performed
    · rename_i anonymous
      cases performed
      exact ⟨.authenticate request idle anonymous, trivial, nofun, nofun⟩
    · cases performed
  · rename_i stage busy
    obtain ⟨⟨gateway, next⟩, advanced, rfl⟩ := Option.map_eq_some_iff.mp performed
    refine ⟨.progress stage next gateway busy (HandleStage.advance_step advanced), trivial,
      nofun, fun _ sending => ?_⟩
    rw [busy] at sending
    rw [HandleStage.advance_quiet sending] at advanced
    cases advanced
  · rename_i stage busy
    cases performed
    exact ⟨.cancel stage busy, trivial, nofun, nofun⟩
  · cases performed

end ServeWorld

namespace Cluster

variable {ι : Type} [DecidableEq ι] [Fintype ι] (contexts : ι → ConnectionContext)

instance (cluster : Cluster ι) (event : SessionControlEvent) :
    Decidable (cluster.Published event) :=
  inferInstanceAs (Decidable (∃ gateway, event ∈ (cluster.servers gateway).published))

def perform (cluster : Cluster ι) : Action ι → Cluster ι
  | .connect gateway session pushes =>
    match cluster.connections session with
    | none => if session ≠ 0 then cluster.connect gateway session pushes else cluster
    | some _ => cluster
  | .serve session action =>
    match cluster.connections session with
    | none => cluster
    | some connection =>
      match (cluster.view connection).perform (contexts connection.gateway) action with
      | none => cluster
      | some next => cluster.settle session connection next
  | .publish session sent =>
    match cluster.connections session with
    | none => cluster
    | some connection =>
      match connection.phase with
      | .handling (.publishing claims previous) =>
        (cluster.onServer connection.gateway
          { cluster.servers connection.gateway with
            published := (if sent then [GatewayServer.loginEvent claims.identity session]
                else []) ++ (cluster.servers connection.gateway).published }).write session
          { connection with phase := .handling (.kicking claims previous) }
      | _ => cluster
  | .kick session sent =>
    match cluster.connections session with
    | none => cluster
    | some connection =>
      match connection.phase with
      | .handling (.kicking claims previous) =>
        { cluster.onServer connection.gateway
            ((contexts connection.gateway).kickPrevious previous claims.identity "" sent
              (cluster.servers connection.gateway, cluster.pushes)).1 with
          pushes := ((contexts connection.gateway).kickPrevious previous claims.identity ""
            sent (cluster.servers connection.gateway, cluster.pushes)).2 }.write session
          { connection with
            phase := .handling ((contexts connection.gateway).respondReconnect
              claims.identity "" cluster.clock (fun reconnect =>
                .authenticated ⟨connection.session.id, claims.identity, reconnect⟩)) }
      | _ => cluster
  | .handleEvent gateway order event =>
    if cluster.Published event then
      { cluster.onServer gateway
          ((GatewayServer.handle order event).call (cluster.servers gateway)).2 with
        handled := event.keepSessionId.toList.map (·, gateway) ++ cluster.handled }
    else cluster
  | _ => cluster

theorem perform_step (cluster : Cluster ι) (action : Action ι) :
    cluster.perform contexts action = cluster ∨
      Step contexts cluster action (cluster.perform contexts action) := by
  cases action with
  | connect gateway session pushes =>
    simp only [perform]
    split
    · rename_i unused
      split
      · rename_i named
        exact .inr (.connect gateway session pushes unused named)
      · exact .inl rfl
    · exact .inl rfl
  | serve session action =>
    simp only [perform]
    split
    · exact .inl rfl
    · rename_i connection found
      split
      · exact .inl rfl
      · rename_i next performed
        obtain ⟨step, own, staying, quiet⟩ := ServeWorld.perform_step performed
        exact .inr (.serve session connection action next found own quiet
          (fun leaving => absurd leaving staying) step)
  | publish session sent =>
    simp only [perform]
    split
    · exact .inl rfl
    · rename_i connection found
      split
      · rename_i claims previous busy
        exact .inr (.publish session connection claims previous sent found busy)
      · exact .inl rfl
  | kick session sent =>
    simp only [perform]
    split
    · exact .inl rfl
    · rename_i connection found
      split
      · rename_i claims previous busy
        exact .inr (.kick session connection claims previous sent "" "" found busy (by decide))
      · exact .inl rfl
  | handleEvent gateway order event =>
    simp only [perform]
    split
    · rename_i published
      exact .inr (.handleEvent gateway order event published)
    · exact .inl rfl
  | elapse | refill | deliverPush => exact .inl rfl

def performAll (cluster : Cluster ι) (actions : List (Action ι)) : Cluster ι :=
  actions.foldl (perform contexts) cluster

def Permits (allowed : Cluster ι → Action ι → Prop) : Cluster ι → List (Action ι) → Prop
  | _, [] => True
  | cluster, action :: rest =>
    allowed cluster action ∧ Permits allowed (cluster.perform contexts action) rest

instance decidablePermits (allowed : Cluster ι → Action ι → Prop)
    [∀ cluster action, Decidable (allowed cluster action)] :
    (cluster : Cluster ι) → (actions : List (Action ι)) →
      Decidable (Permits contexts allowed cluster actions)
  | _, [] => isTrue trivial
  | cluster, action :: rest =>
    have := decidablePermits allowed (cluster.perform contexts action) rest
    inferInstanceAs (Decidable (_ ∧ _))

theorem performAll_run {allowed : Cluster ι → Action ι → Prop} {cluster : Cluster ι}
    {actions : List (Action ι)} (permitted : Permits contexts allowed cluster actions) :
    RunWhen allowed (Step contexts) cluster (cluster.performAll contexts actions) := by
  induction actions generalizing cluster with
  | nil => exact .refl cluster
  | cons action _ ih =>
    obtain ⟨here, later⟩ := permitted
    have first : RunWhen allowed (Step contexts) cluster (cluster.perform contexts action) := by
      rcases cluster.perform_step contexts action with same | step
      · rw [same]
        exact .refl cluster
      · exact (RunWhen.refl cluster).take step here
    exact first.trans (ih later)

end Cluster

end Elura
