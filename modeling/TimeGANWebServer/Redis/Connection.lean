import TimeGANWebServer.Redis.Manager
import TimeGANWebServer.Support.Refinement

/-!
# The contexts behind the manager

`RedisManager` with the contexts of the client library.  A context is allocated, has to be freed
once and not be used after that, and has an error or not.  What the functions of the library return,
and what they make of a context and of the world, is left open.  Where they do as documented, the
manager of `Manager.lean`, which is connected or not, is what can be seen of this one.
-/

namespace TimeGANWebServer.Redis.Connection

open TimeGANWebServer.Support

/-! ## The library -/

/-- What is sent to a server. -/
inductive Request where
  | auth (password : List UInt8)
  | command (command : Command)
  deriving DecidableEq, Repr

/-- `struct timeval`. -/
structure Timeval where
  tvSec : Int
  tvUsec : Int
  deriving DecidableEq, Repr

/-- The `timeval` of a number of milliseconds, as `connect` fills it. -/
def timeval (timeoutMs : Int) : Timeval where
  tvSec := timeoutMs.tdiv 1000
  tvUsec := timeoutMs.tmod 1000 * 1000

/-- hiredis, as the program uses it: the error of a context, and what each function returns and
makes of the context it is given and of the world, which is the servers and the network.  No
context and no reply stand for the null pointer; `redisSetTimeout` has a result too, which the
program does not look at.  `pass` is what time does to the world. -/
structure Hiredis (Context World : Type) where
  err : Context → Bool
  redisConnectWithTimeout : List UInt8 → Int → Timeval → World → Option Context × World
  redisSetTimeout : Timeval → Context → World → Context × World
  redisFree : Context → World → World
  redisCommand : Request → Context → World → Option RedisReply × Context × World
  pass : Nat → World → World

variable {Context World : Type}

/-- What is documented of hiredis, with a server behind it that stores sessions.  Only commands and
time have an effect on what is stored.  A context that is in step has no reply of an earlier
request before it: so is a new one, and one on which each request so far has got its reply.  On
such a context a command is answered, refused with an error, or lost, which leaves no reply and an
error in the context; and with an error in the context there is no reply to anything. -/
structure Hiredis.Documented (lib : Hiredis Context World) (store : World → Store)
    (InStep : Context → Prop) : Prop where
  connects : ∀ host port timeout world,
    store (lib.redisConnectWithTimeout host port timeout world).2 = store world ∧
      ∀ context ∈ (lib.redisConnectWithTimeout host port timeout world).1, InStep context
  setsTimeout : ∀ timeout context world, InStep context →
    store (lib.redisSetTimeout timeout context world).2 = store world ∧
      InStep (lib.redisSetTimeout timeout context world).1
  frees : ∀ context world, store (lib.redisFree context world) = store world
  auth : ∀ password context world, InStep context →
    store (lib.redisCommand (.auth password) context world).2.2 = store world ∧
      ((lib.redisCommand (.auth password) context world).1 ≠ none →
        InStep (lib.redisCommand (.auth password) context world).2.1)
  command : ∀ command context world, InStep context → lib.err context = false →
    (∃ delivery, Redis.redisCommand (store world) command delivery =
      ((lib.redisCommand (.command command) context world).1,
        store (lib.redisCommand (.command command) context world).2.2)) ∧
      ((lib.redisCommand (.command command) context world).1 ≠ none →
        InStep (lib.redisCommand (.command command) context world).2.1 ∧
          lib.err (lib.redisCommand (.command command) context world).2.1 = false)
  broken : ∀ request context world, lib.err context = true →
    (lib.redisCommand request context world).1 = none ∧
      store (lib.redisCommand request context world).2.2 = store world
  passes : ∀ seconds world, store (lib.pass seconds world) = (store world).pass seconds

/-! ## The manager -/

/-- `m_host`, `m_port`, `m_password` and `m_timeout_ms`. -/
structure Settings where
  host : List UInt8
  port : Int
  password : List UInt8
  timeoutMs : Int
  deriving DecidableEq, Repr

/-- The manager, the contexts that are allocated, how many there have been, and the world.  A
context is known by its place among all that have been made. -/
structure State (Context World : Type) where
  settings : Settings
  ctx : Option Nat
  contexts : Nat → Option Context
  made : Nat
  world : World

namespace State

/-- The program before `connect`. -/
def start (settings : Settings) (world : World) : State Context World where
  settings := settings
  ctx := none
  contexts := fun _ => none
  made := 0
  world := world

section Functions

variable (lib : Hiredis Context World)

/-- `redisConnectWithTimeout`. -/
def redisConnectWithTimeout (state : State Context World) (host : List UInt8) (port : Int)
    (timeout : Timeval) : Option Nat × State Context World :=
  match lib.redisConnectWithTimeout host port timeout state.world with
  | (none, world) => (none, { state with world := world })
  | (some context, world) =>
      (some state.made, { state with
        contexts := Function.update state.contexts state.made (some context)
        made := state.made + 1
        world := world })

/-- `redisSetTimeout`; there is no result if the context is not allocated. -/
def redisSetTimeout (state : State Context World) (address : Nat) (timeout : Timeval) :
    Option (State Context World) :=
  (state.contexts address).map fun context =>
    let set := lib.redisSetTimeout timeout context state.world
    { state with contexts := Function.update state.contexts address (some set.1), world := set.2 }

/-- `redisFree`; there is no result if the context is not allocated. -/
def redisFree (state : State Context World) (address : Nat) : Option (State Context World) :=
  (state.contexts address).map fun context =>
    { state with
      contexts := Function.update state.contexts address none
      world := lib.redisFree context state.world }

/-- `redisCommand`; there is no result if the context is not allocated. -/
def redisCommand (state : State Context World) (address : Nat) (request : Request) :
    Option (Option RedisReply × State Context World) :=
  (state.contexts address).map fun context =>
    let sent := lib.redisCommand request context state.world
    (sent.1, { state with
      contexts := Function.update state.contexts address (some sent.2.1)
      world := sent.2.2 })

/-- The last part of `RedisManager::connect`: `AUTH`, if there is a password. -/
def authenticate (state : State Context World) (address : Nat) (password : List UInt8) :
    Option (Bool × State Context World) := do
  if password = [] then
    return (true, state)
  match ← state.redisCommand lib address (.auth password) with
  | (none, state) | (some (.error _), state) =>
      let freed ← state.redisFree lib address
      return (false, { freed with ctx := none })
  | (some _, state) => return (true, state)

/-- `RedisManager::connect`. -/
def connect (state : State Context World) (settings : Settings) :
    Option (Bool × State Context World) :=
  let state := { state with settings := settings }
  match state.redisConnectWithTimeout lib settings.host settings.port
    (timeval settings.timeoutMs) with
  | (none, state) => some (false, { state with ctx := none })
  | (some address, state) => do
      let state := { state with ctx := some address }
      let context ← state.contexts address
      if lib.err context then
        let freed ← state.redisFree lib address
        return (false, { freed with ctx := none })
      let state ← state.redisSetTimeout lib address (timeval settings.timeoutMs)
      state.authenticate lib address settings.password

/-- `RedisManager::disconnect`. -/
def disconnect (state : State Context World) : Option (State Context World) :=
  match state.ctx with
  | none => some state
  | some address => (state.redisFree lib address).map fun freed => { freed with ctx := none }

/-- `RedisManager::isConnected`. -/
def isConnected (state : State Context World) : Option Bool :=
  match state.ctx with
  | none => some false
  | some address => (state.contexts address).map fun context => !lib.err context

/-- `RedisManager::reconnect`. -/
def reconnect (state : State Context World) : Option (Bool × State Context World) := do
  let state ← state.disconnect lib
  state.connect lib state.settings

/-- The command of a call, on the current context; `reconnect` if there is no reply. -/
def transmit (state : State Context World) (command : Command) :
    Option (Option RedisReply × State Context World) := do
  let address ← state.ctx
  match ← state.redisCommand lib address (.command command) with
  | (none, state) =>
      let (_, state) ← state.reconnect lib
      return (none, state)
  | (some reply, state) => return (some reply, state)

/-- What `setSession`, `getSession` and `delSession` have in common. -/
def send (state : State Context World) (command : Command) :
    Option (Option RedisReply × State Context World) := do
  if ← state.isConnected lib then
    state.transmit lib command
  else
    match ← state.reconnect lib with
    | (false, state) => return (none, state)
    | (true, state) => state.transmit lib command

/-- `RedisManager::setSession`. -/
def setSession (state : State Context World) (token username : List UInt8) (ttlSeconds : Int) :
    Option (Bool × State Context World) := do
  let (reply, state) ← state.send lib (.setex token ttlSeconds username)
  match reply with
  | some (.status str) => return (strcasecmp str (ascii "OK"), state)
  | _ => return (false, state)

/-- `RedisManager::getSession`, with the user name if it returns true. -/
def getSession (state : State Context World) (token : List UInt8) :
    Option (Option (List UInt8) × State Context World) := do
  let (reply, state) ← state.send lib (.get token)
  match reply with
  | some (.string str) => return (some str, state)
  | _ => return (none, state)

/-- `RedisManager::delSession`. -/
def delSession (state : State Context World) (token : List UInt8) :
    Option (Bool × State Context World) := do
  let (reply, state) ← state.send lib (.del token)
  match reply with
  | some (.integer integer) => return (decide (0 < integer), state)
  | _ => return (false, state)

/-- Time passes. -/
def pass (state : State Context World) (seconds : Nat) : State Context World :=
  { state with world := lib.pass seconds state.world }

/-- The manager of `Manager.lean`. -/
def view (store : World → Store) (state : State Context World) : RedisManager where
  connected := state.isConnected lib = some true
  store := store state.world

end Functions

/-! ## The invariant -/

/-- Between two calls the only context that is allocated is the current one. -/
def Lone (state : State Context World) : Prop :=
  ∀ address, state.contexts address ≠ none ↔ state.ctx = some address

/-- The current context has no reply of an earlier request before it. -/
def Steady (InStep : Context → Prop) (state : State Context World) : Prop :=
  ∀ address context, state.ctx = some address → state.contexts address = some context →
    InStep context

variable {lib : Hiredis Context World} {store : World → Store} {InStep : Context → Prop}
  {state : State Context World}

theorem Lone.found (lone : state.Lone) {address : Nat} (held : state.ctx = some address) :
    ∃ context, state.contexts address = some context :=
  Option.ne_none_iff_exists'.mp ((lone address).mpr held)

/-- Without a current context there is none. -/
theorem Lone.empty (lone : state.Lone) (closed : state.ctx = none) (address : Nat) :
    state.contexts address = none := by
  by_contra allocated
  have held := (lone address).mp allocated
  rw [closed] at held
  contradiction

theorem lone_of_empty (empty : ∀ address, state.contexts address = none)
    (closed : state.ctx = none) :
    state.Lone := by
  intro address
  simp only [empty address, closed, ne_eq, not_true_eq_false, reduceCtorEq]

theorem steady_of_closed (closed : state.ctx = none) : state.Steady InStep := by
  intro address context held
  rw [closed] at held
  contradiction

/-- The current context is stored again. -/
theorem Lone.keep {address : Nat} (lone : state.Lone) (held : state.ctx = some address)
    (context : Context) (world : World) :
    ({ state with
      contexts := Function.update state.contexts address (some context)
      world := world } : State Context World).Lone := by
  intro other
  by_cases same : other = address
  · simp only [same, Function.update_self, ne_eq, reduceCtorEq, not_false_eq_true, held]
  · simp only [Function.update_of_ne same]
    exact lone other

theorem steady_store {address : Nat} (held : state.ctx = some address) {context : Context}
    (inStep : InStep context) (world : World) :
    ({ state with
      contexts := Function.update state.contexts address (some context)
      world := world } : State Context World).Steady InStep := by
  intro other found heldToo stored
  simp only [held, Option.some.injEq] at heldToo
  subst heldToo
  simp only [Function.update_self, Option.some.injEq] at stored
  exact stored ▸ inStep

/-- The current context is freed, and with it every one there is. -/
theorem Lone.free {address : Nat} (lone : state.Lone) (held : state.ctx = some address) :
    ∃ freed, state.redisFree lib address = some freed ∧
      (∀ other, freed.contexts other = none) ∧ freed.settings = state.settings ∧
      (lib.Documented store InStep → store freed.world = store state.world) := by
  obtain ⟨context, found⟩ := lone.found held
  refine ⟨{ state with
      contexts := Function.update state.contexts address none
      world := lib.redisFree context state.world }, by rw [redisFree, found, Option.map_some],
    fun other => ?_, rfl, fun documented => documented.frees context state.world⟩
  by_cases same : other = address
  · simp only [same, Function.update_self]
  · simp only [Function.update_of_ne same]
    by_contra allocated
    have heldToo := (lone other).mp allocated
    rw [held, Option.some.injEq] at heldToo
    exact same heldToo.symm

/-! ## Connecting -/

theorem disconnect_spec (lone : state.Lone) :
    ∃ next, state.disconnect lib = some next ∧ next.ctx = none ∧
      (∀ address, next.contexts address = none) ∧ next.settings = state.settings ∧
      (lib.Documented store InStep → store next.world = store state.world) := by
  cases held : state.ctx with
  | none => exact ⟨state, by simp only [disconnect, held], held, lone.empty held, rfl, fun _ => rfl⟩
  | some address =>
      obtain ⟨freed, frees, empty, settings, stored⟩ :=
        @Lone.free Context World lib store InStep state address lone held
      refine ⟨{ freed with ctx := none }, ?_, rfl, empty, settings, stored⟩
      simp only [disconnect, held, frees, Option.map_some]

/-- What connecting comes to, in any world: no context but the current one is allocated; and where
the library does as documented, that one is in step, and nothing has been stored. -/
structure Connects (lib : Hiredis Context World) (store : World → Store) (InStep : Context → Prop)
    (state : State Context World) (success : Bool) (next : State Context World) : Prop where
  lone : next.Lone
  settings : next.settings = state.settings
  ctx : next.ctx.isSome = success
  documented : lib.Documented store InStep →
    next.Steady InStep ∧ store next.world = store state.world

/-- `AUTH` lets the connection in, or the context is freed. -/
theorem authenticate_spec {address : Nat} (lone : state.Lone) (held : state.ctx = some address)
    (steady : lib.Documented store InStep → state.Steady InStep) (password : List UInt8) :
    ∃ success next, state.authenticate lib address password = some (success, next) ∧
      Connects lib store InStep state success next := by
  by_cases given : password = []
  · refine ⟨true, state, by simp [authenticate, given], lone, rfl, by rw [held]; rfl,
      fun documented => ⟨steady documented, rfl⟩⟩
  obtain ⟨context, found⟩ := lone.found held
  let sent := lib.redisCommand (.auth password) context state.world
  let asked : State Context World := { state with
    contexts := Function.update state.contexts address (some sent.2.1)
    world := sent.2.2 }
  have command : state.redisCommand lib address (.auth password) = some (sent.1, asked) := by
    rw [redisCommand, found]
    rfl
  have askedLone : asked.Lone := lone.keep held _ _
  have stored : lib.Documented store InStep → store asked.world = store state.world ∧
      (sent.1 ≠ none → InStep sent.2.1) := fun documented =>
    documented.auth password context state.world (steady documented address context held found)
  obtain ⟨freed, frees, empty, settings, same⟩ :=
    @Lone.free Context World lib store InStep asked address askedLone held
  have refused : Connects lib store InStep state false { freed with ctx := none } :=
    ⟨lone_of_empty empty rfl, settings, rfl, fun documented =>
      ⟨steady_of_closed rfl, (same documented).trans (stored documented).1⟩⟩
  cases reply : sent.1 with
  | none =>
      refine ⟨false, _, ?_, refused⟩
      simp only [authenticate, given, if_false, command, reply, Option.bind_eq_bind,
        Option.bind_some, frees, Option.pure_def]
  | some answer =>
      have accepted : Connects lib store InStep state true asked :=
        ⟨askedLone, rfl, by rw [show asked.ctx = some address from held]; rfl, fun documented =>
          ⟨steady_store held ((stored documented).2 (by rw [reply]; exact nofun)) _,
            (stored documented).1⟩⟩
      cases answer with
      | error message =>
          refine ⟨false, _, ?_, refused⟩
          simp only [authenticate, given, if_false, command, reply, Option.bind_eq_bind,
            Option.bind_some, frees, Option.pure_def]
      | status | integer | nil | string =>
          refine ⟨true, asked, ?_, accepted⟩
          simp only [authenticate, given, if_false, command, reply, Option.bind_eq_bind,
            Option.bind_some, Option.pure_def]

theorem connect_spec (empty : ∀ address, state.contexts address = none) (settings : Settings) :
    ∃ success next, state.connect lib settings = some (success, next) ∧
      Connects lib store InStep { state with settings := settings } success next := by
  have connects : lib.Documented store InStep → _ := fun documented =>
    documented.connects settings.host settings.port (timeval settings.timeoutMs) state.world
  cases opened : lib.redisConnectWithTimeout settings.host settings.port
      (timeval settings.timeoutMs) state.world with
  | mk opening world =>
      rw [opened] at connects
      cases opening with
      | none =>
          refine ⟨false, { state with settings := settings, ctx := none, world := world }, ?_,
            lone_of_empty empty rfl, rfl, rfl, fun documented =>
              ⟨steady_of_closed rfl, (connects documented).1⟩⟩
          simp only [connect, redisConnectWithTimeout, opened]
      | some context =>
          let held : State Context World := { state with
            settings := settings
            ctx := some state.made
            contexts := Function.update state.contexts state.made (some context)
            made := state.made + 1
            world := world }
          have found : held.contexts state.made = some context := Function.update_self _ _ _
          have heldLone : held.Lone := by
            intro other
            by_cases same : other = state.made
            · subst same
              exact iff_of_true (by rw [found]; exact nofun) rfl
            · refine iff_of_false (not_not.mpr ?_) fun same' => same (Option.some.inj same').symm
              exact (Function.update_of_ne same _ _).trans (empty other)
          by_cases err : lib.err context = true
          · obtain ⟨freed, frees, none_, same, stored⟩ :=
              @Lone.free Context World lib store InStep held state.made heldLone rfl
            refine ⟨false, { freed with ctx := none }, ?_, lone_of_empty none_ rfl, same, rfl,
              fun documented => ⟨steady_of_closed rfl,
                (stored documented).trans (connects documented).1⟩⟩
            simp only [connect, redisConnectWithTimeout, opened, Function.update_self,
              Option.bind_eq_bind, Option.bind_some, if_pos err, Option.pure_def]
            rw [show redisFree lib _ state.made = some freed from frees, Option.bind_some]
          · let set := lib.redisSetTimeout (timeval settings.timeoutMs) context world
            let timed : State Context World := { held with
              contexts := Function.update held.contexts state.made (some set.1)
              world := set.2 }
            have inStep : lib.Documented store InStep →
                store set.2 = store world ∧ InStep set.1 := fun documented =>
              documented.setsTimeout _ context world ((connects documented).2 context rfl)
            obtain ⟨success, next, authenticated, spec⟩ :=
              @authenticate_spec Context World lib store InStep timed state.made
                (heldLone.keep rfl set.1 set.2) rfl
                (fun documented => steady_store rfl (inStep documented).2 set.2) settings.password
            refine ⟨success, next, ?_, spec.lone, spec.settings, spec.ctx, fun documented => ?_⟩
            · simp only [connect, redisConnectWithTimeout, opened, redisSetTimeout,
                Function.update_self, Option.bind_eq_bind, Option.bind_some, if_neg err,
                Option.map_some]
              exact authenticated
            · obtain ⟨steady, stored⟩ := spec.documented documented
              exact ⟨steady, stored.trans
                ((inStep documented).1.trans (connects documented).1)⟩

/-- `reconnect` frees the current context, and connects. -/
theorem reconnect_spec (lone : state.Lone) :
    ∃ success next, state.reconnect lib = some (success, next) ∧
      Connects lib store InStep state success next := by
  obtain ⟨closed, disconnected, _, empty, settings, stored⟩ :=
    @disconnect_spec Context World lib store InStep state lone
  obtain ⟨success, next, connected, spec⟩ :=
    @connect_spec Context World lib store InStep closed empty state.settings
  refine ⟨success, next, ?_, spec.lone, spec.settings, spec.ctx, fun documented => ?_⟩
  · simp only [reconnect, disconnected, settings, Option.bind_eq_bind, Option.bind_some, connected]
  · obtain ⟨steady, same⟩ := spec.documented documented
    exact ⟨steady, same.trans (stored documented)⟩

/-! ## Commands -/

/-- What a call comes to, in any world: no context but the current one is allocated; and where the
library does as documented, that one is in step, and the manager of `Manager.lean` can do the
same. -/
structure Serves (lib : Hiredis Context World) (store : World → Store) (InStep : Context → Prop)
    (state next : State Context World) (Matches : RedisManager → RedisManager → Prop) : Prop where
  lone : next.Lone
  documented : lib.Documented store InStep → state.Steady InStep →
    next.Steady InStep ∧ Matches (state.view lib store) (next.view lib store)

theorem isConnected_spec (lone : state.Lone) :
    ∃ connected, state.isConnected lib = some connected ∧
      (connected = true ↔ ∃ address context, state.ctx = some address ∧
        state.contexts address = some context ∧ lib.err context = false) := by
  cases held : state.ctx with
  | none => exact ⟨false, by simp only [isConnected, held], by simp⟩
  | some address =>
      obtain ⟨context, found⟩ := lone.found held
      refine ⟨!lib.err context, by simp only [isConnected, held, found, Option.map_some], ?_⟩
      simp [found]

theorem connected_view {connected : Bool} (asked : state.isConnected lib = some connected) :
    (state.view lib store).connected = connected := by
  simp [view, asked]

/-- A command on the current context, with what follows it: the manager of `Manager.lean` gets the
same reply, if the command fares as it does here. -/
theorem transmit_spec {address : Nat} (lone : state.Lone) (held : state.ctx = some address)
    (command : Command) :
    ∃ reply next, state.transmit lib command = some (reply, next) ∧
      Serves lib store InStep state next fun before behind => ∃ delivery,
        Redis.redisCommand before.store command delivery = (reply, behind.store) ∧
          (reply ≠ none → behind.connected = true) := by
  obtain ⟨context, found⟩ := lone.found held
  let sent := lib.redisCommand (.command command) context state.world
  let asked : State Context World := { state with
    contexts := Function.update state.contexts address (some sent.2.1)
    world := sent.2.2 }
  have command' : state.redisCommand lib address (.command command) = some (sent.1, asked) := by
    rw [redisCommand, found]
    rfl
  have askedLone : asked.Lone := lone.keep held _ _
  -- in either case the command has fared somehow; and a reply leaves the context in order
  have fared : lib.Documented store InStep → state.Steady InStep →
      (∃ delivery, Redis.redisCommand (store state.world) command delivery =
        (sent.1, store sent.2.2)) ∧
        (sent.1 ≠ none → InStep sent.2.1 ∧ lib.err sent.2.1 = false) := by
    intro documented steady
    cases err : lib.err context with
    | false =>
        exact documented.command command context state.world (steady address context held found) err
    | true =>
        obtain ⟨silent, same⟩ := documented.broken (.command command) context state.world err
        exact ⟨⟨.lost false, Prod.ext silent.symm same.symm⟩, fun replied => absurd silent replied⟩
  cases reply : sent.1 with
  | none =>
      obtain ⟨success, next, reconnected, spec⟩ :=
        @reconnect_spec Context World lib store InStep asked askedLone
      refine ⟨none, next, ?_, spec.lone, fun documented steady => ?_⟩
      · simp only [transmit, held, command', reply, reconnected, Option.bind_eq_bind,
          Option.bind_some, Option.pure_def]
      · obtain ⟨nextSteady, stored⟩ := spec.documented documented
        obtain ⟨⟨delivery, delivered⟩, _⟩ := fared documented steady
        refine ⟨nextSteady, delivery, ?_, fun replied => absurd rfl replied⟩
        rw [show (state.view lib store).store = store state.world from rfl, delivered, reply]
        exact congrArg (Prod.mk none) stored.symm
  | some answer =>
      refine ⟨some answer, asked, ?_, askedLone, fun documented steady => ?_⟩
      · simp only [transmit, held, command', reply, Option.bind_eq_bind, Option.bind_some,
          Option.pure_def]
      · obtain ⟨⟨delivery, delivered⟩, ordered⟩ := fared documented steady
        obtain ⟨inStep, err⟩ := ordered (by rw [reply]; exact nofun)
        refine ⟨steady_store held inStep _, delivery, ?_, fun _ => ?_⟩
        · rw [show (state.view lib store).store = store state.world from rfl, delivered, reply]
          rfl
        · have heldToo : asked.ctx = some address := held
          have stored : asked.contexts address = some sent.2.1 := Function.update_self _ _ _
          simp [view, isConnected, heldToo, stored, err]

/-- A call sends its command as in `Manager.lean`. -/
theorem send_spec (lone : state.Lone) (command : Command) :
    ∃ reply next, state.send lib command = some (reply, next) ∧
      Serves lib store InStep state next fun before behind => ∃ attempt,
        before.send attempt command = (reply, behind) := by
  obtain ⟨connected, asked, isConnected⟩ := @isConnected_spec Context World lib state lone
  have seen := @connected_view Context World lib store state connected asked
  -- what the manager of `Manager.lean` does once it is connected, with the next state's connection
  have matched :
      ∀ {manager behind : RedisManager} {reply : Option RedisReply} {delivery : Delivery},
      Redis.redisCommand manager.store command delivery = (reply, behind.store) →
      (reply ≠ none → behind.connected = true) → ∀ connects,
        ¬(manager.connected = false ∧ connects = false) →
        manager.send ⟨connects, delivery, behind.connected⟩ command = (reply, behind) := by
    intro manager behind reply delivery fared ordered connects opens
    simp only [RedisManager.send, if_neg opens, fared]
    cases reply with
    | none => rfl
    | some answer => rw [← ordered (Option.some_ne_none answer)]
  cases connected with
  | true =>
      obtain ⟨address, context, held, _⟩ := isConnected.mp rfl
      obtain ⟨reply, next, sent, nextLone, documented⟩ :=
        @transmit_spec Context World lib store InStep state address lone held command
      refine ⟨reply, next, ?_, nextLone, fun docs steady => ?_⟩
      · simp only [send, asked, Option.bind_eq_bind, Option.bind_some, if_true, sent]
      · obtain ⟨nextSteady, delivery, fared, ordered⟩ := documented docs steady
        refine ⟨nextSteady, _, matched fared ordered true fun unopened => ?_⟩
        rw [seen] at unopened
        exact absurd unopened.1 (by decide)
  | false =>
      obtain ⟨success, opened, reconnected, spec⟩ :=
        @reconnect_spec Context World lib store InStep state lone
      cases success with
      | false =>
          have closed : opened.ctx = none :=
            Option.isNone_iff_eq_none.mp (Option.isSome_eq_false_iff.mp spec.ctx)
          refine ⟨none, opened, ?_, spec.lone, fun docs steady => ?_⟩
          · simp only [send, asked, reconnected, Option.bind_eq_bind, Option.bind_some,
              Bool.false_eq_true, if_false, Option.pure_def]
          · obtain ⟨nextSteady, stored⟩ := spec.documented docs
            refine ⟨nextSteady, ⟨false, .answered, false⟩, ?_⟩
            have unconnected : (opened.view lib store).connected = false := by
              simp [view, State.isConnected, closed]
            simp only [RedisManager.send, seen, and_self, if_true]
            rw [← unconnected, show (state.view lib store).store = (opened.view lib store).store
              from stored.symm]
      | true =>
          obtain ⟨address, held⟩ := Option.isSome_iff_exists.mp spec.ctx
          obtain ⟨reply, next, sent, nextLone, documented⟩ :=
            @transmit_spec Context World lib store InStep opened address spec.lone held command
          refine ⟨reply, next, ?_, nextLone, fun docs steady => ?_⟩
          · simp only [send, asked, reconnected, Option.bind_eq_bind, Option.bind_some,
              Bool.false_eq_true, if_false, sent]
          · obtain ⟨openedSteady, stored⟩ := spec.documented docs
            obtain ⟨nextSteady, delivery, fared, ordered⟩ := documented docs openedSteady
            have same : (opened.view lib store).store = (state.view lib store).store := stored
            rw [same] at fared
            refine ⟨nextSteady, _, matched fared ordered true fun unopened => ?_⟩
            exact absurd unopened.2 (by decide)

/-- What the three functions make of the reply is the same on both levels. -/
theorem answer_spec {Answer : Type} (answer : Option RedisReply → Answer) (lone : state.Lone)
    (command : Command) :
    ∃ answered next,
      (state.send lib command).map (fun sent => (answer sent.1, sent.2)) = some (answered, next) ∧
      Serves lib store InStep state next fun before behind => ∃ attempt,
        (answer (before.send attempt command).1, (before.send attempt command).2) =
          (answered, behind) := by
  obtain ⟨reply, next, sent, nextLone, documented⟩ :=
    @send_spec Context World lib store InStep state lone command
  refine ⟨answer reply, next, by rw [sent, Option.map_some], nextLone, fun docs steady => ?_⟩
  obtain ⟨nextSteady, attempt, same⟩ := documented docs steady
  exact ⟨nextSteady, attempt, by rw [same]⟩

theorem setSession_spec (lone : state.Lone) (token username : List UInt8) (ttlSeconds : Int) :
    ∃ ok next, state.setSession lib token username ttlSeconds = some (ok, next) ∧
      Serves lib store InStep state next fun before behind => ∃ attempt,
        before.setSession attempt token username ttlSeconds = (ok, behind) := by
  let answer : Option RedisReply → Bool
    | some (.status str) => strcasecmp str (ascii "OK")
    | _ => false
  have same : state.setSession lib token username ttlSeconds =
      (state.send lib (.setex token ttlSeconds username)).map fun sent =>
        (answer sent.1, sent.2) := by
    rw [setSession]
    rcases state.send lib (.setex token ttlSeconds username) with
      _ | ⟨_ | _ | _ | _ | _ | _, _⟩ <;> rfl
  rw [same]
  exact answer_spec answer lone _

theorem getSession_spec (lone : state.Lone) (token : List UInt8) :
    ∃ found next, state.getSession lib token = some (found, next) ∧
      Serves lib store InStep state next fun before behind => ∃ attempt,
        before.getSession attempt token = (found, behind) := by
  let answer : Option RedisReply → Option (List UInt8)
    | some (.string str) => some str
    | _ => none
  have same : state.getSession lib token =
      (state.send lib (.get token)).map fun sent => (answer sent.1, sent.2) := by
    rw [getSession]
    rcases state.send lib (.get token) with _ | ⟨_ | _ | _ | _ | _ | _, _⟩ <;> rfl
  rw [same]
  exact answer_spec answer lone _

theorem delSession_spec (lone : state.Lone) (token : List UInt8) :
    ∃ deleted next, state.delSession lib token = some (deleted, next) ∧
      Serves lib store InStep state next fun before behind => ∃ attempt,
        before.delSession attempt token = (deleted, behind) := by
  let answer : Option RedisReply → Bool
    | some (.integer integer) => decide (0 < integer)
    | _ => false
  have same : state.delSession lib token =
      (state.send lib (.del token)).map fun sent => (answer sent.1, sent.2) := by
    rw [delSession]
    rcases state.send lib (.del token) with _ | ⟨_ | _ | _ | _ | _ | _, _⟩ <;> rfl
  rw [same]
  exact answer_spec answer lone _

/-- Time is not the manager's. -/
theorem pass_spec (lone : state.Lone) (seconds : Nat) :
    Serves lib store InStep state (state.pass lib seconds) fun before behind =>
      before.pass seconds = behind := by
  refine ⟨lone, fun documented steady => ⟨steady, ?_⟩⟩
  simp only [RedisManager.pass, view, State.pass, documented.passes]
  rfl

end State

/-! ## Calls -/

/-- What the rest of the program does with the manager, and time passes.  In `Manager.lean` a call
comes with the behaviour of the network. -/
inductive Call (Network : Type) where
  | setSession (network : Network) (token username : List UInt8) (ttlSeconds : Int)
  | getSession (network : Network) (token : List UInt8)
  | delSession (network : Network) (token : List UInt8)
  | pass (seconds : Nat)
  deriving DecidableEq, Repr

/-- What a call returns. -/
inductive Returned where
  | ok (ok : Bool)
  | found (username : Option (List UInt8))
  deriving DecidableEq, Repr

/-- The call itself. -/
def Call.forget : Call Redis.Attempt → Call Unit
  | .setSession _ token username ttlSeconds => .setSession () token username ttlSeconds
  | .getSession _ token => .getSession () token
  | .delSession _ token => .delSession () token
  | .pass seconds => .pass seconds

/-- A call of the manager with its contexts; there is no result if a context is used or freed that
is not allocated. -/
def State.call (lib : Hiredis Context World) (state : State Context World) :
    Call Unit → Option (State Context World × List Returned)
  | .setSession _ token username ttlSeconds =>
      (state.setSession lib token username ttlSeconds).map fun result =>
        (result.2, [.ok result.1])
  | .getSession _ token =>
      (state.getSession lib token).map fun result => (result.2, [.found result.1])
  | .delSession _ token =>
      (state.delSession lib token).map fun result => (result.2, [.ok result.1])
  | .pass seconds => some (state.pass lib seconds, [])

/-- A call of the manager of `Manager.lean`. -/
def call (manager : RedisManager) : Call Redis.Attempt → Option (RedisManager × List Returned)
  | .setSession network token username ttlSeconds =>
      let result := manager.setSession network token username ttlSeconds
      some (result.2, [.ok result.1])
  | .getSession network token =>
      let result := manager.getSession network token
      some (result.2, [.found result.1])
  | .delSession network token =>
      let result := manager.delSession network token
      some (result.2, [.ok result.1])
  | .pass seconds => some (manager.pass seconds, [])

variable {lib : Hiredis Context World} {store : World → Store} {InStep : Context → Prop}

/-- Each call can be made, and the manager of `Manager.lean` can return the same. -/
theorem call_spec {state : State Context World} (lone : state.Lone) (asked : Call Unit) :
    ∃ next returned, state.call lib asked = some (next, returned) ∧
      State.Serves lib store InStep state next fun before behind => ∃ above : Call Redis.Attempt,
        above.forget = asked ∧ call before above = some (behind, returned) := by
  cases asked with
  | setSession network token username ttlSeconds =>
      obtain ⟨ok, next, made, nextLone, documented⟩ :=
        @State.setSession_spec Context World lib store InStep state lone token username ttlSeconds
      refine ⟨next, _, by rw [State.call, made]; rfl, nextLone, fun docs steady => ?_⟩
      obtain ⟨nextSteady, attempt, same⟩ := documented docs steady
      exact ⟨nextSteady, .setSession attempt token username ttlSeconds, rfl, by rw [call, same]⟩
  | getSession network token =>
      obtain ⟨found, next, made, nextLone, documented⟩ :=
        @State.getSession_spec Context World lib store InStep state lone token
      refine ⟨next, _, by rw [State.call, made]; rfl, nextLone, fun docs steady => ?_⟩
      obtain ⟨nextSteady, attempt, same⟩ := documented docs steady
      exact ⟨nextSteady, .getSession attempt token, rfl, by rw [call, same]⟩
  | delSession network token =>
      obtain ⟨deleted, next, made, nextLone, documented⟩ :=
        @State.delSession_spec Context World lib store InStep state lone token
      refine ⟨next, _, by rw [State.call, made]; rfl, nextLone, fun docs steady => ?_⟩
      obtain ⟨nextSteady, attempt, same⟩ := documented docs steady
      exact ⟨nextSteady, .delSession attempt token, rfl, by rw [call, same]⟩
  | pass seconds =>
      obtain ⟨passLone, documented⟩ :=
        @State.pass_spec Context World lib store InStep state lone seconds
      refine ⟨_, [], rfl, passLone, fun docs steady => ?_⟩
      obtain ⟨nextSteady, same⟩ := documented docs steady
      exact ⟨nextSteady, .pass seconds, rfl, by rw [call, same]⟩

/-- **The manager and its contexts** over a whole run, from `connect` in `main` to the destructor,
with any library and any world: no context is used that has been freed or is null, and none is freed
twice; between two calls only the current one is allocated, and at the end none.  And where the
library does as documented, `connect` leaves the sessions alone, and the calls return what they
return in `Manager.lean`, as the network behaves. -/
theorem answers_of_run (lib : Hiredis Context World) (settings : Settings) (world : World)
    (calls : List (Call Unit)) :
    ∃ success connected last returned final,
      (State.start settings world).connect lib settings = some (success, connected) ∧
        run (State.call lib) connected calls = some (last, returned) ∧
        (∀ address, last.contexts address ≠ none ↔ last.ctx = some address) ∧
        last.disconnect lib = some final ∧ (∀ address, final.contexts address = none) ∧
        ∀ store InStep, lib.Documented store InStep →
          store connected.world = store world ∧
            ∃ above, above.map Call.forget = calls ∧
              run call (connected.view lib store) above = some (last.view lib store, returned) := by
  have start : ∀ address, (State.start settings world : State Context World).contexts address =
      none := fun _ => rfl
  have anyStore : World → Store := fun _ => Expiring.empty
  obtain ⟨success, connected, opened, spec⟩ :=
    @State.connect_spec Context World lib anyStore (fun _ => True) _ start settings
  obtain ⟨last, returned, ran, lone⟩ := @run_of_meets _ _ _ (State.call lib) State.Lone
    (fun _ _ => True)
    (fun state asked lone _ => by
      obtain ⟨next, returned, made, serves⟩ :=
        @call_spec Context World lib anyStore (fun _ => True) state lone asked
      exact ⟨next, returned, made, serves.lone⟩)
    connected calls spec.lone (RunMeets.always connected calls)
  obtain ⟨final, closed, -, empty, -, -⟩ :=
    @State.disconnect_spec Context World lib anyStore (fun _ => True) last lone
  refine ⟨success, connected, last, returned, final, opened, ran, lone, closed, empty,
    fun store InStep documented => ?_⟩
  obtain ⟨_, _, openedToo, specToo⟩ :=
    @State.connect_spec Context World lib store InStep _ start settings
  rw [opened, Option.some.injEq, Prod.mk.injEq] at openedToo
  obtain ⟨rfl, rfl⟩ := openedToo
  obtain ⟨steady, stored⟩ := specToo.documented documented
  obtain ⟨lastToo, returnedToo, above, ranToo, -, same, ranAbove⟩ :=
    run_total (fun state => state.Lone ∧ state.Steady InStep) (State.view lib store) Call.forget
      (fun state asked holds => by
        obtain ⟨next, returned, made, nextLone, serves⟩ :=
          @call_spec Context World lib store InStep state holds.1 asked
        obtain ⟨nextSteady, above, forgets, called⟩ := serves documented holds.2
        exact ⟨next, returned, above, made, ⟨nextLone, nextSteady⟩, forgets, called⟩)
      ⟨spec.lone, steady⟩ calls
  rw [ran, Option.some.injEq, Prod.mk.injEq] at ranToo
  obtain ⟨rfl, rfl⟩ := ranToo
  exact ⟨stored, above, same, ranAbove⟩

/-- A server without a password, and which of the next requests it does not get because the
connection breaks. -/
structure OneServer where
  store : Store
  breaks : List Bool

/-- The library with this server; a context is whether there is an error. -/
def oneServer : Hiredis Bool OneServer where
  err context := context
  redisConnectWithTimeout _ _ _ world := (some false, world)
  redisSetTimeout _ context world := (context, world)
  redisFree _ world := world
  redisCommand request context world :=
    if context then
      (none, true, world)
    else if world.breaks.head? = some true then
      (none, true, { world with breaks := world.breaks.tail })
    else
      match request with
      | .auth _ =>
          (some (.error (ascii
            "ERR AUTH called without any password configured for the default user")), false,
            { world with breaks := world.breaks.tail })
      | .command command =>
          (some (execute world.store command).1, false,
            { store := (execute world.store command).2, breaks := world.breaks.tail })
  pass seconds world := { world with store := world.store.pass seconds }

theorem oneServer_documented : oneServer.Documented OneServer.store fun _ => True where
  connects _ _ _ _ := ⟨rfl, fun _ _ => trivial⟩
  setsTimeout _ _ _ _ := ⟨rfl, trivial⟩
  frees _ _ := rfl
  auth password context world _ := by
    refine ⟨?_, fun _ => trivial⟩
    simp only [oneServer]
    split
    · rfl
    · split <;> rfl
  command command context world _ err := by
    have sound : context = false := err
    subst sound
    by_cases breaks : world.breaks.head? = some true
    · simp only [oneServer, Bool.false_eq_true, if_false, if_pos breaks]
      exact ⟨⟨.lost false, rfl⟩, fun replied => absurd rfl replied⟩
    · simp only [oneServer, Bool.false_eq_true, if_false, if_neg breaks]
      exact ⟨⟨.answered, rfl⟩, fun _ => ⟨trivial, trivial⟩⟩
  broken request context world err := by
    have broken : context = true := err
    subst broken
    exact ⟨rfl, rfl⟩
  passes _ _ := rfl

/-- A session is stored; the connection breaks when it is looked up, and is there again. -/
def lookedUpTwice : List (Call Unit) :=
  [.setSession () (ascii "token") (ascii "bob") 1800, .getSession () (ascii "token"), .pass 10,
    .getSession () (ascii "token")]

theorem answers_of_run_lookedUpTwice :
    ∃ connected last final above,
      (State.start ⟨ascii "127.0.0.1", 6379, [], 2000⟩ ⟨Expiring.empty, [false, true]⟩).connect
          oneServer ⟨ascii "127.0.0.1", 6379, [], 2000⟩ = some (true, connected) ∧
        run (State.call oneServer) connected lookedUpTwice =
          some (last, [.ok true, .found none, .found (some (ascii "bob"))]) ∧
        (∀ address, last.contexts address ≠ none ↔ last.ctx = some address) ∧
        last.disconnect oneServer = some final ∧ (∀ address, final.contexts address = none) ∧
        above.map Call.forget = lookedUpTwice ∧
        run call (connected.view oneServer OneServer.store) above =
          some (last.view oneServer OneServer.store,
            [.ok true, .found none, .found (some (ascii "bob"))]) := by
  obtain ⟨success, connected, last, returned, final, opened, ran, lone, closed, empty,
      documented⟩ :=
    answers_of_run oneServer ⟨ascii "127.0.0.1", 6379, [], 2000⟩ ⟨Expiring.empty, [false, true]⟩
      lookedUpTwice
  obtain ⟨_, above, same, ranAbove⟩ := documented OneServer.store _ oneServer_documented
  have answers : ((State.start ⟨ascii "127.0.0.1", 6379, [], 2000⟩
      ⟨Expiring.empty, [false, true]⟩).connect oneServer
        ⟨ascii "127.0.0.1", 6379, [], 2000⟩).bind (fun connected =>
          (run (State.call oneServer) connected.2 lookedUpTwice).map fun last =>
            (connected.1, last.2)) =
      some (true, [.ok true, .found none, .found (some (ascii "bob"))]) := by
    decide +kernel
  simp only [opened, Option.bind_some, ran, Option.map_some, Option.some.injEq, Prod.mk.injEq]
    at answers
  obtain ⟨rfl, rfl⟩ := answers
  exact ⟨connected, last, final, above, opened, ran, lone, closed, empty, same, ranAbove⟩

end TimeGANWebServer.Redis.Connection
