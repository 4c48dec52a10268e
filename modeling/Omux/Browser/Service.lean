import Mathlib.Data.Rat.Defs
import Mathlib.Algebra.Order.Ring.Nat
import Omux.Library.Dictionary
import Omux.Library.Task

/-!
# The browser service

The extension's background service keeps the connected sources, their states and one
pending request for each source in the browser's storage, and sends mutations to the
native host.  All its operations go through one queue.

What the browser, the native host and the clock answer is a function of the number of
answers asked for so far.  The service may be cut off at every `await`.  The log has the
newest entry first.
-/

namespace Omux.Browser

open Library

inductive SourceState where
  | pendingConnection | connectedSchemaUnproven | grantSubmitted | completionUnknown
  | pendingDisconnect
deriving DecidableEq

inductive Method where
  | connect | importGrant | reconcile | disconnect
deriving DecidableEq

/-- The codes of `AcquisitionError`; `apiRejected` is a rejected browser promise. -/
inductive Code where
  | apiRejected | invalidSourceMetadata | unsupportedAdapter | invalidCommand | operationInProgress
  | startupBudgetExhausted | uncertainOperation | invalidEnvelope | nativeHostUnavailable
  | incompatibleNativeHost | invalidNativeResponse | daemonRejectedRequest
  | providerPermissionRequired | openProviderTab | cookieStoreUnavailable | sourceNotConnected
  | selectSourceContext | disconnectPending | sourceLimitReached
deriving DecidableEq

structure Adapter where
  id : String
  origin : String
  grantExport : Bool
deriving DecidableEq

def adapters : List Adapter :=
  [⟨"codex", "https://chatgpt.com", false⟩, ⟨"claude", "https://claude.ai", false⟩,
   ⟨"github", "https://github.com", false⟩]

def fixture : Adapter :=
  ⟨"fixture", "https://fixture.invalid", true⟩

def getAdapter (allowFixture : Bool) (id : String) : Option Adapter :=
  if allowFixture && id == "fixture" then some fixture
  else adapters.find? (fun adapter => adapter.id == id)

def hostPermission (adapter : Adapter) : String :=
  adapter.origin ++ "/*"

structure Source where
  adapter : String
  storeId : String
  sourceId : String
deriving DecidableEq

structure Pending where
  id : String
  method : Method
deriving DecidableEq

structure Storage where
  metadata : List Source := []
  states : Dictionary SourceState := []
  requests : Dictionary Pending := []

inductive Entry where
  | metadata (sources : List Source)
  | states (states : Dictionary SourceState)
  | requests (requests : Dictionary Pending)
  /-- The envelope was handed to the native host. -/
  | posted (source id : String) (method : Method)
  /-- The host answered that envelope with its id and `accepted = true`. -/
  | accepted (source id : String) (method : Method)
deriving DecidableEq

structure Budget where
  deadline : Rat
  items : Nat

/-- What a restart of the worker loses. -/
structure Memory where
  startupBudget : Option Budget := none
  activeBudget : Option Budget := none
  reconcileCursor : Nat := 0
  inflight : List String := []

structure World where
  storage : Storage := {}
  memory : Memory := {}
  /-- Answers of the environment asked for so far. -/
  tick : Nat := 0
  /-- Calls of `randomId` so far. -/
  drawn : Nat := 0
  log : List Entry := []

/-!
## The environment
-/

/-- How a `storage.local.set` ends; an interrupted one may or may not have landed. -/
inductive Write where
  | resolved
  | rejected (landed : Bool)
  | killed (landed : Bool)
deriving DecidableEq

structure Tab where
  id : Option Nat
  origin : Option String
  incognito : Bool
  cookieStoreId : Option String

structure CookieStore where
  id : Option String
  tabIds : List Nat

inductive Health where
  | ready | incompatible | invalid

/-- A message of the native host, as far as the validators look at it. -/
inductive NativeMessage where
  | malformed
  | error (id : String)
  | result (id : String) (accepted : Bool) (health : Health)

inductive PortEvent where
  | message (response : NativeMessage)
  | disconnected | timedOut

structure Connection where
  opens : Bool
  posts : Bool
  events : List PortEvent

structure Api where
  allowFixture : Bool
  randomId : Nat -> String
  killed : Nat -> Bool
  get : Nat -> Bool
  set : Nat -> Write
  contains : Nat -> Option Bool
  query : Nat -> Option (List Tab)
  stores : Nat -> Option (List CookieStore)
  remove : Nat -> Bool
  acquireGrant : Nat -> Bool
  /-- The checks of `makeEnvelope` on provenance, capsule and size. -/
  makeEnvelope : Nat -> Bool
  monotonicNow : Nat -> Rat
  port : Nat -> Connection
  /-- Bound on the nesting of `send`. -/
  depth : Nat

abbrev Action (α : Type) := Task World Code α

def World.ticked (w : World) : World :=
  { w with tick := w.tick + 1 }

def World.setMetadata (sources : List Source) (w : World) : World :=
  { w with
    storage := { w.storage with metadata := sources }
    log := .metadata sources :: w.log }

def World.setStates (states : Dictionary SourceState) (w : World) : World :=
  { w with
    storage := { w.storage with states }
    log := .states states :: w.log }

def World.setRequests (requests : Dictionary Pending) (w : World) : World :=
  { w with
    storage := { w.storage with requests }
    log := .requests requests :: w.log }

def World.record (entry : Entry) (w : World) : World :=
  { w with log := entry :: w.log }

def World.restarted (w : World) : World :=
  { w with memory := {} }

namespace Api

variable (api : Api)

def await {α : Type} (answer : Nat -> Option α) : Action α := fun w =>
  if api.killed w.tick then (.killed, w.ticked)
  else match answer w.tick with
    | some a => (.done a, w.ticked)
    | none => (.failed .apiRejected, w.ticked)

def storageGet {α : Type} (value : Storage -> α) : Action α := do
  api.await (fun tick => if api.get tick then some () else none)
  Task.read (fun w => value w.storage)

def storageSet (change : World -> World) : Action Unit := fun w =>
  match api.set w.tick with
  | .resolved => (.done (), change w.ticked)
  | .rejected landed => (.failed .apiRejected, if landed then change w.ticked else w.ticked)
  | .killed landed => (.killed, if landed then change w.ticked else w.ticked)

def draw : Action String := fun w =>
  (.done (api.randomId w.drawn), { w with drawn := w.drawn + 1 })

def now : Action Rat := fun w =>
  (.done (api.monotonicNow w.tick), w.ticked)

end Api

/-!
## Storage
-/

def utf16Length (s : String) : Nat :=
  (s.toList.map (fun c => if c.toNat < 65536 then 1 else 2)).sum

def isTextId (most : Nat) (s : String) : Bool :=
  1 <= s.length && s.length <= most &&
    s.toList.all (fun c => c.isAlphanum || c == '.' || c == '_' || c == ':' || c == '-')

def validSource (source : Source) : Bool :=
  isTextId 128 source.sourceId && source.storeId != "" && utf16Length source.storeId <= 128

def validMetadata (entries : List Source) : Bool :=
  entries.length <= 64 && entries.all validSource && decide (entries.map Source.sourceId).Nodup &&
    decide (entries.map (fun entry => (entry.adapter, entry.storeId))).Nodup

def validStates (states : Dictionary SourceState) : Bool :=
  states.length <= 64 && states.all (fun entry => isTextId 128 entry.1)

def validRequests (requests : Dictionary Pending) : Bool :=
  requests.length <= 64 &&
    requests.all (fun entry => isTextId 128 entry.1 && isTextId 64 entry.2.id)

def isEntry (entries : List Source) (id : String) : Bool :=
  entries.any (fun entry => entry.sourceId == id)

namespace Api

variable (api : Api)

def metadata : Action (List Source) := do
  let entries <- api.storageGet Storage.metadata
  Task.failWhen (!validMetadata entries) .invalidSourceMetadata
  Task.failWhen (entries.any (fun entry => (getAdapter api.allowFixture entry.adapter).isNone))
    .unsupportedAdapter
  pure entries

def saveMetadata (entries : List Source) : Action Unit :=
  api.storageSet (World.setMetadata entries)

def states : Action (Dictionary SourceState) := do
  let saved <- api.storageGet Storage.states
  Task.failWhen (!validStates saved) .invalidSourceMetadata
  pure saved

def setState (source : Source) (state : SourceState) : Action Unit := do
  let entries <- api.metadata
  let states <- api.states
  let kept := states.keep (isEntry entries)
  api.storageSet (World.setStates (kept.put source.sourceId state))

end Api

/-!
## The native host
-/

variable (response : NativeMessage)

def validateResponse (requestId : String) : Except Code Unit :=
  match response with
  | .malformed => .error .invalidNativeResponse
  | .error id =>
    if id = requestId then .error .daemonRejectedRequest else .error .invalidNativeResponse
  | .result id _ _ => if id = requestId then .ok () else .error .invalidNativeResponse

def validateHealthResponse (requestId : String) : Except Code Unit := do
  validateResponse response requestId
  match response with
  | .result _ _ .ready => .ok ()
  | .result _ _ .incompatible => .error .incompatibleNativeHost
  | _ => .error .invalidNativeResponse

def NativeMessage.accepts (requestId : String) : Bool :=
  match response with
  | .result id accepted _ => id == requestId && accepted
  | _ => false

def liftExcept {α : Type} (value : Except Code α) : Action α :=
  match value with
  | .ok a => pure a
  | .error code => Task.fail code

def noteAnswer (source id : String) (method : Method) : Action Unit :=
  if response.accepts id then Task.modify (World.record (.accepted source id method))
  else pure ()

/-- The port after the envelope was posted: the first event settles the request. -/
def awaitResponse (source id : String) (method : Method) : List PortEvent -> Action NativeMessage
  | [] => Task.kill
  | .message response :: _ => do
    noteAnswer response source id method
    pure response
  | .disconnected :: _ | .timedOut :: _ => Task.fail .nativeHostUnavailable

/-- The port while the answer to the health envelope is awaited. -/
def awaitHealth (healthId source id : String) (method : Method) (posts : Bool) :
    List PortEvent -> Action NativeMessage
  | [] => Task.kill
  | .message response :: later => do
    liftExcept (validateHealthResponse response healthId)
    Task.failWhen (!posts) .nativeHostUnavailable
    Task.modify (World.record (.posted source id method))
    awaitResponse source id method later
  | .disconnected :: _ | .timedOut :: _ => Task.fail .nativeHostUnavailable

def makeHealthEnvelope (id : String) : Action Unit :=
  Task.failWhen (!isTextId 64 id) .invalidEnvelope

def Api.sendNativeRequest (api : Api) (healthId source id : String) (method : Method) :
    Action NativeMessage := do
  let connection <- api.await (fun tick => some (api.port tick))
  Task.failWhen (!connection.opens) .nativeHostUnavailable
  awaitHealth healthId source id method connection.posts connection.events

def awaitHealthOnly (healthId : String) : List PortEvent -> Action Unit
  | [] => Task.kill
  | .message response :: _ => liftExcept (validateHealthResponse response healthId)
  | .disconnected :: _ | .timedOut :: _ => Task.fail .nativeHostUnavailable

def Api.health (api : Api) : Action Unit := do
  let id <- api.draw
  makeHealthEnvelope id
  let connection <- api.await (fun tick => some (api.port tick))
  Task.failWhen (!connection.opens) .nativeHostUnavailable
  awaitHealthOnly id connection.events

/-!
## Sending a mutation
-/

def Budget.spent (budget : Budget) : Budget :=
  { budget with items := budget.items + 1 }

/-- Both names refer to one object whenever both are set. -/
def Memory.spend (memory : Memory) : Memory :=
  { memory with
    startupBudget := memory.startupBudget.map Budget.spent
    activeBudget := memory.activeBudget.map Budget.spent }

def World.mapMemory (f : Memory -> Memory) (w : World) : World :=
  { w with memory := f w.memory }

namespace Api

variable (api : Api)

def requireBudget (budget : Option Budget) : Action Unit :=
  match budget with
  | none => pure ()
  | some budget => do
    let now <- api.now
    Task.failWhen (budget.deadline - now < 1 || 8 <= budget.items) .startupBudgetExhausted

def spendBudget (budget : Option Budget) : Action Unit :=
  match budget with
  | none => pure ()
  | some budget => do
    let now <- api.now
    Task.failWhen (budget.deadline <= now) .startupBudgetExhausted
    Task.modify (World.mapMemory Memory.spend)

def pendingRequests : Action (Dictionary Pending) := do
  let requests <- api.storageGet Storage.requests
  Task.failWhen (!validRequests requests) .invalidSourceMetadata
  let entries <- api.metadata
  pure (requests.keep (isEntry entries))

def requestIdFor (pending : Option Pending) : Action String :=
  match pending with
  | some request => pure request.id
  | none => api.draw

def requireEnvelope (requestId sourceId : String) : Action Unit := do
  let valid <- Task.read (fun w => api.makeEnvelope w.tick)
  Task.failWhen (!(isTextId 64 requestId && isTextId 128 sourceId && valid)) .invalidEnvelope

variable (source : Source)

def deliver (requestId : String) (method : Method)
    (requests : Dictionary Pending) : Action Unit := do
  let healthId <- api.draw
  let response <- Task.handle (do
      makeHealthEnvelope healthId
      api.sendNativeRequest healthId source.sourceId requestId method)
    (fun code =>
      if code = .incompatibleNativeHost then Task.fail code
      else Task.fail .nativeHostUnavailable)
  liftExcept (validateResponse response requestId)
  Task.failWhen (!response.accepts requestId) .invalidNativeResponse
  api.storageSet (World.setRequests (requests.erase source.sourceId))

def submit (method : Method) (budget : Option Budget)
    (requests : Dictionary Pending) : Action Unit := do
  let pending := requests.get source.sourceId
  Task.failWhen (pending.any (fun request => request.method != method || method == .importGrant))
    .uncertainOperation
  let requestId <- api.requestIdFor pending
  api.requireEnvelope requestId source.sourceId
  let requests := requests.put source.sourceId ⟨requestId, method⟩
  api.storageSet (World.setRequests requests)
  api.spendBudget budget
  api.deliver source requestId method requests

def resolvesFirst (pending : Option Pending) (method : Method) : Bool :=
  pending.any (fun request => request.method == .connect) && method == .disconnect

def sendWithin : Nat -> Source -> Method -> Action Unit
  | 0, _, _ => Task.kill
  | depth + 1, source, method => do
    let budget <- Task.read (fun w => w.memory.activeBudget)
    api.requireBudget budget
    let requests <- api.pendingRequests
    if resolvesFirst (requests.get source.sourceId) method then
      -- an old connection is resolved with its retained id before the disconnect
      sendWithin depth source .connect
      sendWithin depth source method
    else
      api.submit source method budget requests

def send (method : Method) : Action Unit :=
  api.sendWithin api.depth source method

/-!
## Operations on one source
-/

def capture (adapter : Adapter) : Action Unit :=
  if adapter.grantExport then do
    api.await (fun tick => if api.acquireGrant tick then some () else none)
    api.send source .importGrant
  else pure ()

def disconnectSource : Action Unit := do
  api.setState source .pendingDisconnect
  api.send source .disconnect
  let entries <- api.metadata
  api.saveMetadata (entries.filter (fun entry => entry.sourceId != source.sourceId))
  let states <- api.states
  api.storageSet (World.setStates (states.erase source.sourceId))

def reconcileSource (adapter : Adapter) (method : Method) : Action SourceState :=
  Task.handle
    (do
      api.send source method
      api.capture source adapter
      let status :=
        if adapter.grantExport then SourceState.grantSubmitted else .connectedSchemaUnproven
      api.setState source status
      pure status)
    (fun code => do
      api.setState source .completionUnknown
      Task.fail code)

/-!
## Commands
-/

variable (adapter : Adapter)

def context : Action String := do
  let granted <- api.await api.contains
  Task.failWhen (!granted) .providerPermissionRequired
  let tabs <- api.await api.query
  let tab <- Task.orFail tabs.head? .openProviderTab
  let tabId <- Task.orFail tab.id .openProviderTab
  Task.failWhen (tab.origin != some adapter.origin || tab.incognito) .openProviderTab
  let stores <- api.await api.stores
  let store := stores.find? (fun store =>
    store.tabIds.contains tabId &&
      (tab.cookieStoreId.all (· == "") || store.id == tab.cookieStoreId))
  Task.orFail (store.bind CookieStore.id) .cookieStoreUnavailable

def tabStores (tab : Tab) : Action (List CookieStore) :=
  if tab.cookieStoreId.all (· == "") then api.await api.stores else pure []

/-- The store of the tab, for reading the status and for disconnecting. -/
def tabStore (tab : Tab) : Action (Option String) := do
  let stores <- api.tabStores tab
  let found := stores.find? (fun store => tab.id.any store.tabIds.contains)
  pure (tab.cookieStoreId.or (found.bind CookieStore.id))

inductive Standing where
  | disconnected | selectSourceContext
  | state (state : SourceState)

structure Status where
  connection : Standing
  sources : List (Source × SourceState)

variable (states : Dictionary SourceState)

def statusOf (source : Source) : SourceState :=
  (states.get source.sourceId).getD .pendingConnection

def standing (sources : List Source) (states : Dictionary SourceState)
    (selected : Option Adapter) : Action Standing :=
  let fallback : Standing := if sources.isEmpty then .disconnected else .selectSourceContext
  match selected with
  | none => pure fallback
  | some adapter => do
    let tabs <- api.await api.query
    match tabs.head? with
    | some tab =>
      if !tab.incognito && tab.origin == some adapter.origin then do
        let storeId <- api.tabStore tab
        pure (match sources.find? (fun source => some source.storeId == storeId) with
          | some source => .state (statusOf states source)
          | none => .disconnected)
      else pure fallback
    | none =>
      pure (match sources with
        | [source] => .state (statusOf states source)
        | _ => fallback)

def status (selected : Option Adapter) : Action Status := do
  let entries <- api.metadata
  let states <- api.states
  let sources := entries.filter (fun source =>
    selected.all (fun adapter => source.adapter == adapter.id))
  let connection <- api.standing sources states selected
  pure ⟨connection, sources.map (fun source => (source, statusOf states source))⟩

/-- The source that a disconnect command is about. -/
def selectSource (sources : List Source) : Action Source := do
  let tabs <- api.await api.query
  match tabs.head? with
  | some tab => do
    Task.failWhen (tab.incognito || tab.origin != some adapter.origin) .selectSourceContext
    let storeId <- api.tabStore tab
    Task.orFail (sources.find? (fun source => some source.storeId == storeId))
      .sourceNotConnected
  | none =>
    match sources with
    | [] => Task.fail .sourceNotConnected
    | [source] => pure source
    | _ => Task.fail .selectSourceContext

def disconnect (entries : List Source) : Action Unit := do
  let source <- api.selectSource adapter
    (entries.filter (fun entry => entry.adapter == adapter.id))
  api.disconnectSource source
  let remaining <- api.metadata
  if remaining.any (fun entry => entry.adapter == adapter.id) then pure ()
  else api.await (fun tick => if api.remove tick then some () else none)

def addSource (storeId : String) (entries : List Source) : Action Source := do
  Task.failWhen (64 <= entries.length) .sourceLimitReached
  let sourceId <- api.draw
  let source : Source := ⟨adapter.id, storeId, sourceId⟩
  api.saveMetadata (entries ++ [source])
  api.setState source .pendingConnection
  pure source

def findSource (storeId : String) (entries : List Source) : Option Source :=
  entries.find? (fun entry => entry.adapter == adapter.id && entry.storeId == storeId)

def sourceFor (storeId : String) (entries : List Source) : Action Source :=
  match findSource adapter storeId entries with
  | some source => pure source
  | none => api.addSource adapter storeId entries

def connectTarget (entries : List Source) : Action Source := do
  let storeId <- api.context adapter
  api.sourceFor adapter storeId entries

def connect (entries : List Source) : Action SourceState := do
  let source <- api.connectTarget adapter entries
  api.reconcileSource source adapter .connect

def reconcile (entries : List Source) : Action SourceState := do
  let storeId <- api.context adapter
  let source <- Task.orFail (findSource adapter storeId entries) .sourceNotConnected
  let states <- api.states
  Task.failWhen (states.get source.sourceId == some .pendingDisconnect) .disconnectPending
  api.reconcileSource source adapter .reconcile

inductive CommandName where
  | connect | reconcile | disconnect | status
deriving DecidableEq

inductive Command where
  | health
  | named (name : CommandName) (adapter : String)
  /-- Anything else that a page may send. -/
  | invalid

inductive Reply where
  | health
  | status (status : Status)
  | connection (state : SourceState)
  | disconnected

def enterFlight (id : String) (memory : Memory) : Memory :=
  { memory with inflight := id :: memory.inflight }

def leaveFlight (id : String) (memory : Memory) : Memory :=
  { memory with inflight := memory.inflight.filter (· != id) }

def performNamed (name : CommandName) (adapter : Adapter) : Action Reply := do
  let entries <- api.metadata
  match name with
  | .disconnect => do
    api.disconnect adapter entries
    pure .disconnected
  | .connect => do
    let state <- api.connect adapter entries
    pure (.connection state)
  | .reconcile => do
    let state <- api.reconcile adapter entries
    pure (.connection state)
  | .status => Task.fail .invalidCommand

def performCommand (command : Command) : Action Reply :=
  match command with
  | .health => do
    api.health
    pure .health
  | .invalid => Task.fail .invalidCommand
  | .named name id => do
    let adapter <- Task.orFail (getAdapter api.allowFixture id) .unsupportedAdapter
    if name = .status then do
      let status <- api.status (some adapter)
      pure (.status status)
    else do
      let inflight <- Task.read (fun w => w.memory.inflight)
      Task.failWhen (inflight.contains adapter.id) .operationInProgress
      Task.modify (World.mapMemory (enterFlight adapter.id))
      Task.always (api.performNamed name adapter)
        (World.mapMemory (leaveFlight adapter.id))

/-!
## Events and startup
-/

def failWith (failure : Option Code) : Action Unit :=
  match failure with
  | some code => Task.fail code
  | none => pure ()

def removeOne (origins : List String) (cookies : Bool) (entry : Source) :
    Action (Option Code) := do
  let adapter <- Task.orFail (getAdapter api.allowFixture entry.adapter) .unsupportedAdapter
  if cookies || origins.contains (hostPermission adapter) then
    Task.collect (api.disconnectSource entry)
  else pure none

def removePermissions (origins : List String) (cookies : Bool) : Action Unit := do
  let entries <- api.metadata
  let failure <- Task.collectEach (pure true) (api.removeOne origins cookies) entries
  failWith failure

def withinBudget : Action Bool := do
  let now <- api.now
  Task.read (fun w => w.memory.activeBudget.all
    (fun budget => decide (now < budget.deadline) && decide (budget.items < 8)))

def newBudget : Action Budget := do
  let now <- api.now
  pure ⟨now + 10000, 0⟩

/-- A source that is to stay: not marked, and its permission is still granted. -/
def stays (entry : Source) : Action Bool :=
  if states.get entry.sourceId = some .pendingDisconnect then pure false
  else api.await api.contains

def revokeOne (entry : Source) : Action (Option Code) := do
  if <- api.stays states entry then pure none
  else Task.collect (api.disconnectSource entry)

def reconcilePermissions : Action Unit := do
  let budget <- api.newBudget
  Task.modify (World.mapMemory (fun memory =>
    { memory with startupBudget := some budget, activeBudget := some budget }))
  Task.always (do
    let entries <- api.metadata
    let states <- api.states
    let failure <- Task.collectEach api.withinBudget (api.revokeOne states) entries
    failWith failure)
    (World.mapMemory (fun memory => { memory with activeBudget := none }))

/-- The states that `reconcileSources` leaves alone. -/
def skips (state : Option SourceState) : Bool :=
  state == some .pendingDisconnect || state == some .completionUnknown ||
    state == some .pendingConnection

def reconcileOne (entries : List Source) (states : Dictionary SourceState)
    (source : Source) : Action (Option Code) := do
  Task.modify (World.mapMemory (fun memory =>
    { memory with reconcileCursor := (entries.idxOf source + 1) % entries.length }))
  if skips (states.get source.sourceId) then pure none
  else do
    let adapter <- Task.orFail (getAdapter api.allowFixture source.adapter) .unsupportedAdapter
    let granted <- api.await api.contains
    if granted then
      Task.collect (do
        let _ <- api.reconcileSource source adapter .reconcile
        pure ())
    else pure none

def budgetFor (startup : Option Budget) : Action Budget :=
  match startup with
  | some budget => pure budget
  | none => api.newBudget

def reconcileSources : Action Unit := do
  let startup <- Task.read (fun w => w.memory.startupBudget)
  let budget <- api.budgetFor startup
  Task.modify (World.mapMemory (fun memory => { memory with activeBudget := some budget }))
  Task.always (do
    let entries <- api.metadata
    let states <- api.states
    let cursor <- Task.read (fun w => w.memory.reconcileCursor)
    let offset := cursor % entries.length
    let failure <- Task.collectEach api.withinBudget (api.reconcileOne entries states)
      (entries.drop offset ++ entries.take offset)
    failWith failure
    let _ <- api.status none
    pure ())
    (World.mapMemory (fun memory =>
      { memory with activeBudget := none, startupBudget := none }))

structure Scope where
  adapter : String
  storeId : String
  removed : Bool

def cookieOne (scope : Scope) (states : Dictionary SourceState) (source : Source) :
    Action Unit := do
  let adapter <- Task.orFail (getAdapter api.allowFixture source.adapter) .unsupportedAdapter
  if source.adapter != scope.adapter || source.storeId != scope.storeId then pure ()
  else if states.get source.sourceId = some .pendingDisconnect then pure ()
  else do
    let granted <- api.await api.contains
    if granted then
      if scope.removed then api.send source .reconcile else api.capture source adapter
    else pure ()

def cookieScopeChanged (scope : Scope) : Action Unit := do
  let entries <- api.metadata
  let states <- api.states
  Task.forEach (api.cookieOne scope states) entries

inductive Operation where
  | command (command : Command)
  | permissionsRemoved (origins : List String) (cookies : Bool)
  | reconcilePermissions | reconcileSources
  | cookieScopeChanged (scope : Scope)
  | restart

def perform (operation : Operation) : Action Unit :=
  match operation with
  | .command command => do
    let _ <- api.performCommand command
    pure ()
  | .permissionsRemoved origins cookies => api.removePermissions origins cookies
  | .reconcilePermissions => api.reconcilePermissions
  | .reconcileSources => api.reconcileSources
  | .cookieScopeChanged scope => api.cookieScopeChanged scope
  | .restart => Task.kill

/-- One turn of the serialising queue; an operation that was cut off ends the worker. -/
def step (w : World) (operation : Operation) : World :=
  match api.perform operation w with
  | (.done _, next) => next
  | (.failed _, next) => next
  | (.killed, next) => next.restarted

end Api
end Omux.Browser
