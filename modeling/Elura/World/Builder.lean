import Elura.Basis.OrderedMap
import Elura.Core.Values
import Elura.Gateway.Proxy

/-!
The builder of a World server: the routes, middleware and modules registered with it, and the
installation of a module, which is undone when the module's own registration fails.
-/

namespace Elura

open Fallible OrderedMap

open Std (ExtTreeMap)

def firstApplicationRoute : UInt32 := 100

/-- A typed route: its `ID` and its `NAME`. -/
structure Route where
  id : UInt32
  name : String

/-- A call of the registry, with handlers in `H` and middleware in `M`. -/
inductive Registration (H M : Type)
  | routeRaw (route : UInt32) (handler : H)
  | route (route : Route) (handler : H)
  | middleware (middleware : M)
  | routeMiddleware (route : Route) (middleware : M)

/-- The body of a module's `register`. What follows a call may depend on its result, so an error
may be returned or ignored. -/
inductive RegisterProgram (H M : Type)
  | finish (result : Except Error Unit)
  | call (registration : Registration H M) (next : Except Error Unit → RegisterProgram H M)

structure WorldModule (H M : Type) where
  name : String
  register : RegisterProgram H M

def WorldModule.trimmedName {H M : Type} (module : WorldModule H M) : String :=
  String.ofList (trim module.name.toList)

structure WorldBuilder (H M : Type) where
  handlers : ExtTreeMap UInt32 H
  routeNames : ExtTreeMap UInt32 String
  middleware : List M
  routeMiddleware : ExtTreeMap UInt32 (List M)
  modules : List (WorldModule H M)
  moduleNames : Finset String

namespace WorldBuilder

variable {H M : Type}

def new : WorldBuilder H M := ⟨∅, ∅, [], ∅, [], ∅⟩

def registerRaw (route : UInt32) (handler : H) : Fallible (WorldBuilder H M) Error Unit := do
  let builder ← get
  if route < firstApplicationRoute then
    throw (.invalidConfig ("route " ++ toString route ++ " is reserved"))
  else if route ∈ builder.handlers then throw (.duplicateRoute route)
  else set { builder with handlers := builder.handlers.insert route handler }

def register (route : Route) (handler : H) : Fallible (WorldBuilder H M) Error Unit := do
  let builder ← get
  if route.id < firstApplicationRoute then
    throw (.invalidConfig ("route " ++ toString route.id ++ " is reserved"))
  else if route.id ∈ builder.handlers then throw (.duplicateRoute route.id)
  else if isBlank route.name then throw (.invalidConfig "World route name must not be empty")
  else if builder.routeNames.toList.any (fun entry => entry.2 = route.name) then
    throw (.invalidConfig ("duplicate World route name " ++ route.name))
  else do
    registerRaw route.id handler
    modify (fun builder =>
      { builder with routeNames := builder.routeNames.insert route.id route.name })

def useMiddleware (middleware : M) : Fallible (WorldBuilder H M) Error Unit :=
  modify (fun builder => { builder with middleware := builder.middleware ++ [middleware] })

def useRouteMiddlewareRaw (route : UInt32) (middleware : M) :
    Fallible (WorldBuilder H M) Error Unit :=
  modify (fun builder => { builder with
    routeMiddleware := builder.routeMiddleware.insert route
      ((builder.routeMiddleware[route]?).getD [] ++ [middleware]) })

def useRouteMiddleware (route : Route) (middleware : M) :
    Fallible (WorldBuilder H M) Error Unit :=
  useRouteMiddlewareRaw route.id middleware

def perform : Registration H M → Fallible (WorldBuilder H M) Error Unit
  | .routeRaw route handler => registerRaw route handler
  | .route route handler => register route handler
  | .middleware middleware => useMiddleware middleware
  | .routeMiddleware route middleware => useRouteMiddleware route middleware

def runProgram : RegisterProgram H M → WorldBuilder H M → Except Error Unit × WorldBuilder H M
  | .finish result, builder => (result, builder)
  | .call registration next, builder =>
    let (result, after) := (perform registration).call builder
    runProgram (next result) after

def install (module : WorldModule H M) : Fallible (WorldBuilder H M) Error Unit := do
  let builder ← get
  if module.trimmedName = "" then throw (.invalidConfig "world module name is empty")
  else if module.trimmedName ∈ builder.moduleNames then
    throw (.invalidConfig ("duplicate world module " ++ module.trimmedName))
  else match runProgram module.register builder with
    | (.error error, after) => do
      set { after with
        handlers := builder.handlers
        routeNames := builder.routeNames
        middleware := after.middleware.take builder.middleware.length
        routeMiddleware := builder.routeMiddleware }
      throw error
    | (.ok (), after) =>
      set { after with
        moduleNames := insert module.trimmedName after.moduleNames
        modules := after.modules ++ [module] }

variable {builder before after : WorldBuilder H M} {property : WorldBuilder H M → Prop}

/-- What one call of the registry can do to the builder. -/
inductive Registers (builder : WorldBuilder H M) : WorldBuilder H M → Prop
  | rejected : Registers builder builder
  | raw (route : UInt32) (handler : H) (free : route ∉ builder.handlers) :
    Registers builder { builder with handlers := builder.handlers.insert route handler }
  | typed (route : Route) (handler : H) (free : route.id ∉ builder.handlers)
    (unnamed : ∀ other : UInt32, builder.routeNames[other]? ≠ some route.name) :
    Registers builder { builder with
      handlers := builder.handlers.insert route.id handler
      routeNames := builder.routeNames.insert route.id route.name }
  | middleware (middleware : M) :
    Registers builder { builder with middleware := builder.middleware ++ [middleware] }
  | routeMiddleware (routeMiddleware : ExtTreeMap UInt32 (List M)) :
    Registers builder { builder with routeMiddleware }

theorem registerRaw_registers (route : UInt32) (handler : H) :
    Registers builder ((registerRaw route handler).call builder).2 := by
  rw [registerRaw, call_bind, call_get]
  simp only [call_ite]
  split
  · exact .rejected
  split
  · exact .rejected
  · exact .raw route handler ‹_›

theorem register_registers (route : Route) (handler : H) :
    Registers builder ((register route handler).call builder).2 := by
  rw [register, call_bind, call_get]
  simp only [call_ite]
  split
  · exact .rejected
  split
  · exact .rejected
  split
  · exact .rejected
  split
  · exact .rejected
  · rename_i permitted free _ unnamed
    have called : (registerRaw route.id handler).call builder =
        (.ok (), { builder with handlers := builder.handlers.insert route.id handler }) := by
      rw [registerRaw, call_bind, call_get]
      simp only [if_neg permitted, if_neg free, call_set]
    rw [call_bind, called]
    refine .typed route handler free fun other found => unnamed ?_
    exact List.any_eq_true.mpr
      ⟨_, ExtTreeMap.mem_toList_iff_getElem?_eq_some.mpr found, decide_eq_true rfl⟩

theorem perform_registers (registration : Registration H M) :
    Registers builder ((perform registration).call builder).2 := by
  cases registration with
  | routeRaw route handler => exact registerRaw_registers route handler
  | route route handler => exact register_registers route handler
  | middleware middleware => exact .middleware middleware
  | routeMiddleware => exact .routeMiddleware _

theorem runProgram_keeps
    (kept : ∀ {before after : WorldBuilder H M}, Registers before after → property before →
      property after)
    (program : RegisterProgram H M) (held : property builder) :
    property (runProgram program builder).2 := by
  induction program generalizing builder with
  | finish => exact held
  | call registration next ih => exact ih _ (kept (perform_registers registration) held)

/-- What no call of the registry changes, and the middleware it only adds to. -/
structure Extends (before after : WorldBuilder H M) : Prop where
  modules : after.modules = before.modules
  names : after.moduleNames = before.moduleNames
  middleware : before.middleware <+: after.middleware

theorem Extends.registers {first : WorldBuilder H M} (step : Registers before after)
    (extended : Extends first before) : Extends first after := by
  cases step with
  | middleware added =>
    exact ⟨extended.modules, extended.names,
      extended.middleware.trans (List.prefix_append _ [added])⟩
  | _ => exact ⟨extended.modules, extended.names, extended.middleware⟩

theorem runProgram_extends (program : RegisterProgram H M) (builder : WorldBuilder H M) :
    Extends builder (runProgram program builder).2 :=
  runProgram_keeps Extends.registers program ⟨rfl, rfl, List.prefix_rfl⟩

theorem install_transactional (module : WorldModule H M) (builder : WorldBuilder H M) :
    Transactional (install module) builder := by
  refine transactional_get_bind (transactional_ite (transactional_throw _)
    (transactional_ite (transactional_throw _) ?_))
  have extended := runProgram_extends module.register builder
  rcases ran : runProgram module.register builder with ⟨_ | ⟨⟩, reached⟩
  · rw [ran] at extended
    rintro _ _ ⟨⟩
    -- Cutting the middleware to its former length undoes the additions and nothing else.
    rw [← List.prefix_iff_eq_take.mp extended.middleware, extended.modules, extended.names]
  · rintro _ _ ⟨⟩

theorem install_ok {module : WorldModule H M}
    (installed : (install module).call builder = (.ok (), after)) :
    module.trimmedName ∉ builder.moduleNames ∧
      after = { (runProgram module.register builder).2 with
        moduleNames := insert module.trimmedName builder.moduleNames
        modules := builder.modules ++ [module] } := by
  have extended := runProgram_extends module.register builder
  rw [install, call_bind, call_get] at installed
  simp only [call_ite] at installed
  split at installed
  · cases installed
  split at installed
  · cases installed
  · rename_i unknown
    refine ⟨unknown, ?_⟩
    rcases ran : runProgram module.register builder with ⟨_ | ⟨⟩, reached⟩
    · rw [ran] at installed
      cases installed
    · rw [ran] at installed extended
      cases installed
      rw [← extended.modules, ← extended.names]

structure Unique (builder : WorldBuilder H M) : Prop where
  named : ∀ (left right : UInt32) name, builder.routeNames[left]? = some name →
    builder.routeNames[right]? = some name → left = right
  handled : ∀ route ∈ builder.routeNames, route ∈ builder.handlers
  modules : (builder.modules.map WorldModule.trimmedName).Nodup
  listed : builder.moduleNames = (builder.modules.map WorldModule.trimmedName).toFinset

theorem Unique.registers (step : Registers before after) (unique : Unique before) :
    Unique after := by
  cases step with
  | rejected => exact unique
  | middleware | routeMiddleware => exact { unique with }
  | raw route handler free =>
    exact { unique with handled := fun other named =>
      ExtTreeMap.mem_insert.mpr (.inr (unique.handled other named)) }
  | typed route handler free unnamed =>
    refine { unique with named := ?_, handled := fun other named => ?_ }
    · intro left right name first second
      rw [getElem?_insert_ite] at first second
      split at first
      all_goals split at second
      · exact ‹route.id = left›.symm.trans ‹_›
      · cases first
        exact absurd second (unnamed right)
      · cases second
        exact absurd first (unnamed left)
      · exact unique.named left right name first second
    · exact ExtTreeMap.mem_insert.mpr ((ExtTreeMap.mem_insert.mp named).imp_right
        (unique.handled other))

theorem Unique.install (unique : Unique builder) (module : WorldModule H M) :
    Unique ((install module).call builder).2 := by
  rcases called : (WorldBuilder.install module).call builder with ⟨error | ⟨⟩, after⟩
  · rw [install_transactional module builder error after called]
    exact unique
  · obtain ⟨unknown, rfl⟩ := install_ok called
    have registered := runProgram_keeps Unique.registers module.register unique
    rw [unique.listed, List.mem_toFinset] at unknown
    refine { registered with modules := ?_, listed := ?_ }
    · rw [List.map_append, List.nodup_append]
      refine ⟨unique.modules, List.nodup_singleton _, ?_⟩
      rintro name known _ added rfl
      rw [List.map_singleton, List.mem_singleton] at added
      exact unknown (added ▸ known)
    · rw [unique.listed]
      ext name
      simp

/-- The builders an application can have: it registers routes and middleware itself and installs
modules, whatever the results are. -/
inductive Reachable : WorldBuilder H M → Prop
  | new : Reachable new
  | perform {builder : WorldBuilder H M} (registration : Registration H M) :
    Reachable builder → Reachable ((perform registration).call builder).2
  | install {builder : WorldBuilder H M} (module : WorldModule H M) :
    Reachable builder → Reachable ((install module).call builder).2

theorem Reachable.unique (reachable : Reachable builder) : Unique builder := by
  induction reachable with
  | new => exact ⟨by simp [WorldBuilder.new], by simp [WorldBuilder.new], List.nodup_nil, rfl⟩
  | perform registration _ ih => exact ih.registers (perform_registers registration)
  | install module _ ih => exact ih.install module

theorem Registers.keeps (step : Registers before after) {route : UInt32} {handler : H}
    (held : before.handlers[route]? = some handler) : after.handlers[route]? = some handler := by
  cases step with
  | raw other _ free | typed other _ free =>
    rw [getElem?_insert_ite, if_neg, held]
    rintro rfl
    exact free (ExtTreeMap.mem_iff_isSome_getElem?.mpr (by rw [held]; rfl))
  | _ => exact held

/-- A failed installation leaves no trace. Routes, names of typed routes and modules are unique in
every builder: the handler of a route that is registered again stays the first one. -/
theorem install_atomic :
    (∀ (builder : WorldBuilder H M) module error after,
      (install module).call builder = (.error error, after) → after = builder) ∧
    ∀ builder : WorldBuilder H M, Reachable builder →
      builder.handlers.keys.Nodup ∧
      (∀ registration (route : UInt32) handler, builder.handlers[route]? = some handler →
        ((perform registration).call builder).2.handlers[route]? = some handler) ∧
      (∀ (left right : UInt32) name, builder.routeNames[left]? = some name →
        builder.routeNames[right]? = some name → left = right) ∧
      (∀ route ∈ builder.routeNames, route ∈ builder.handlers) ∧
      (builder.modules.map WorldModule.trimmedName).Nodup := by
  refine ⟨fun builder module => install_transactional module builder, ?_⟩
  intro builder reachable
  have unique := reachable.unique
  refine ⟨ExtTreeMap.nodup_keys, ?_, unique.named, unique.handled, unique.modules⟩
  intro registration route handler held
  exact (perform_registers registration).keeps held

end WorldBuilder

end Elura
