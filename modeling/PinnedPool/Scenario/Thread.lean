import PinnedPool.Scenario.World

/-! # The threads of a scenario

A thread works off its frames, the innermost first. A step is none while the thread has to wait:
for a gate, a result, the lock of a registry, or inside a pool.
-/
namespace PinnedPool.Scenario.World

variable {α : Type} (w : World α)

def resume (t : ThreadId) (stack : List (Frame α)) (signal : Signal α) : World α :=
  w.setThread t ⟨stack, signal⟩

def respond (t : ThreadId) (rest : List (Frame α)) (v : Value α) : World α :=
  w.resume t rest (.value v)

def enter (p : Nat) (t : ThreadId) (r : Pool.Request (Job α)) (rest : List (Frame α)) : World α :=
  match w.onPool p t (.call t r) with
  | some (w, _) => w.resume t (.call p :: rest) .none
  | none => w.respond t rest .never

def construct (t : ThreadId) (threads : Nat) (c : Controller) (refusal : Option (Nat × Os.Error))
    (rest : List (Frame α)) : World α :=
  let id := w.pools.length
  match Pool.create id threads c.backend.name t with
  | .failed f lines => (w.say t lines).resume t rest (.made (.error f))
  | .begun pool lines =>
    let hosted : Hosted α := ⟨pool, c, refusal⟩
    ({ w with pools := w.pools ++ [hosted] }.say t lines).resume t
      (.call id :: .built id :: rest) .none

def constructFrom (t : ThreadId) (c : Config) (refusal : Option (Nat × Os.Error))
    (rest : List (Frame α)) : World α :=
  let warnings := (c.topology.warnings w.machine.logical).map Log.Line.suspicious
  let (controller, selected) := Controller.detect w.machine c
  (w.say t (warnings ++ selected)).construct t c.threads controller refusal rest

def failure : Failure → Signal α
  | .refused e => .value (.failed e)
  | .unwound m => .thrown (.text m)

def thrown? : Signal α → Option Payload
  | .thrown p => some p
  | _ => none

/-- A pool that a call returned goes to a name, or is let go. -/
def take (t : ThreadId) (label : Option String) (p : Nat) (rest : List (Frame α)) : World α :=
  let (v, w) := w.view p
  match label with
  | none => w.resume t (.release p :: .answer v :: rest) .none
  | some name =>
    let old : List (Frame α) := ((w.labeled? name).map Frame.release).toList
    { w with labels := (name, p) :: w.labels.filter (·.1 ≠ name) }.resume t
      (old ++ Frame.answer v :: rest) .none

def forgetLabel (name : String) : World α :=
  { w with labels := w.labels.filter (·.1 ≠ name) }

def forgetHandle (name : String) : World α :=
  { w with handles := w.handles.erase name }

def currentTask : ThreadId → Option Ticket
  | .client _ => none
  | .worker p i => (w.hosted? p).bind (·.pool.currentTask (.worker p i))

def ask (t : ThreadId) (rest : List (Frame α)) (name : String)
    (f : Nat → Hosted α → World α) : World α :=
  match w.labeled? name with
  | none => w.respond t rest .noPool
  | some p =>
    match w.hosted? p with
    | none => w.respond t rest .noPool
    | some h => f p h

/-- Submits a job, and keeps its handle under the name of a task if there is one. -/
def submit (t : ThreadId) (rest : List (Frame α)) (p : Nat) (task : Option String) (job : Job α) :
    World α :=
  w.enter p t (.submit job task.isSome) (.submitted p task :: rest)

def queue (t : ThreadId) (rest : List (Frame α)) (p : Nat) (task : Option String)
    (body : List (Action α)) : Option Nat → World α
  | none => w.submit t rest p task ⟨body, 0⟩
  | some n => w.resume t (.copies p task body 0 n :: rest) (.value .nothing)

/-- Begins an action of a thread, with what the thread has to do after it. The text of a
configuration is read before the registry is asked, but who asks from outside of every pool gets
the error in turn. -/
def perform (t : ThreadId) (rest : List (Frame α)) (index : Nat) : Action α → World α
  | .event text => { w with events := text.getD (toString index) :: w.events }.resume t rest .none
  | .add n => { w with counter := w.counter + n }.resume t rest .none
  | .pass gate => w.resume t (.gate gate :: rest) .none
  | .openGate gate => { w with opened := gate :: w.opened }.respond t rest .done
  | .index => w.respond t rest (.number index)
  | .ticket => w.respond t rest (.ticket (w.currentTask t))
  | .otherTicket => w.respond t rest (.ticket none)
  | .threadName => w.respond t rest (.text (threadName t))
  | .give v => w.respond t rest (.given v)
  | .panic p => w.resume t rest (.thrown p)
  | .enqueue pool task body copies => w.ask t rest pool fun p _ => w.queue t rest p task body copies
  | .spawn pool body copies => w.ask t rest pool fun p _ => w.queue t rest p none body copies
  | .join task =>
    match w.handle? task with
    | none => w.respond t rest .noTask
    | some h => (w.forgetHandle task).resume t (.await h :: rest) .none
  | .tryJoin task =>
    match w.handle? task with
    | none => w.respond t rest .noTask
    | some h =>
      match w.tryJoin h with
      | none => w.respond t rest .notFinished
      | some r => (w.forgetHandle task).respond t rest (.ofResult r)
  | .isFinished task =>
    match w.handle? task with
    | none => w.respond t rest .noTask
    | some h => w.respond t rest (.flag (w.isFinished h))
  | .describe task =>
    match w.handle? task with
    | none => w.respond t rest .noTask
    | some h =>
      w.respond t rest
        (.text ("TaskHandle \x7b finished: " ++ toString (w.isFinished h) ++ " \x7d"))
  | .dropHandle task =>
    match w.handle? task with
    | none => w.respond t rest .noTask
    | some _ => (w.forgetHandle task).respond t rest .done
  | .wait pool =>
    w.ask t rest pool fun p h =>
      if 0 < h.pool.pending && h.pool.deserted then w.respond t rest .never
      else w.enter p t .wait (.release p :: .answer .done :: rest)
  | .shutdown pool =>
    w.ask t rest pool fun p _ => w.enter p t .shutdown (.release p :: .answer .done :: rest)
  | .drop pool =>
    w.ask t rest pool fun p _ =>
      (w.forgetLabel pool).resume t (.release p :: .answer .done :: rest) .none
  | .pending pool => w.ask t rest pool fun _ h => w.respond t rest (.number h.pool.pending)
  | .stopping pool => w.ask t rest pool fun _ h => w.respond t rest (.flag h.pool.stopping)
  | .threadCount pool => w.ask t rest pool fun _ h => w.respond t rest (.number h.pool.threads)
  | .isWorker pool => w.ask t rest pool fun _ h => w.respond t rest (.flag (h.pool.isWorker t))
  | .backend pool =>
    w.ask t rest pool fun _ h => w.respond t rest (.text h.controller.backend.name)
  | .topology pool =>
    w.ask t rest pool fun _ h => w.respond t rest (.topology h.controller.topology)
  | .apply pool cores =>
    w.ask t rest pool fun _ h =>
      match w.applyCores h.controller cores t with
      | (w, none) => w.resume t rest .none
      | (w, some p) => w.resume t rest (.thrown p)
  | .create label order refusal =>
    match order with
    | .controlled threads topology maker =>
      let (c, lines) := maker.make w.machine topology
      (w.say t lines).construct t threads c refusal (.adopt label :: rest)
    | .configured source =>
      match source.config with
      | .error e => w.respond t rest (.failed e)
      | .ok c => w.constructFrom t c refusal (.adopt label :: rest)
  | .registry name asking label =>
    let call (r : Registry.Request) : World α :=
      match w.onRegistry name t (.call t r) with
      | some (w, _) => w.resume t (.registry name label :: rest) .none
      | none => w.respond t rest .never
    match asking with
    | .setUp source =>
      match source.config, t with
      | .ok c, _ => call (.setUp c)
      | .error e, .client _ => w.resume t (.turn name :: .answer (.failed e) :: rest) .none
      | .error e, .worker _ _ => w.respond t rest (.failed e)
    | .getOrInit => call .getOrInit
    | .get => call .get
    | .shutdown => call .shutdown

def endBody (t : ThreadId) (e : Ending (Value α)) : Option (World α) :=
  match t with
  | .client _ => none
  | .worker p i =>
    -- the values of a scenario drop quietly, so it makes no difference whether the handle is there
    (w.onPool p t (.finish i e)).map fun (w, _) => w.endThread t

/-- The next action of a body. The values of a body are those of its actions, unless it ends with a
value of its own; applying a class of cores has no value, not even where there is no pool. -/
def stepBody (t : ThreadId) (todo : List (Action α)) (values : List (Value α)) (index : Nat)
    (rest : List (Frame α)) : Option (World α) :=
  match todo with
  | [] => w.endBody t (.returned (.list values))
  | .give v :: _ => w.endBody t (.returned (.given v))
  | a :: more =>
    let frames := .body more values index :: rest
    match a with
    | .apply pool _ =>
      if (w.labeled? pool).isNone then some (w.resume t frames .none)
      else some (w.perform t frames index a)
    | a => some (w.perform t frames index a)

/-- The next step inside a call of a pool: the system's answers and the choice of whom to wake are
those of this world. -/
def stepCall (t : ThreadId) (p : Nat) (rest : List (Frame α)) : Option (World α) :=
  match w.hosted? p with
  | none => none
  | some h =>
    let e : Pool.Event (Job α) (Value α) := match h.pool.callOf? t with
      | some .build =>
        .spawn t (h.refusal.bind fun (i, e) => if i = h.pool.workers.length then some e else none)
      | some (.notify _) => .notify t h.pool.firstParked
      | _ => .proceed t
    match w.onPool p t e with
    | none => none
    | some (w, none) => some w
    | some (w, some (.unwound p)) => some (w.resume t rest (.thrown p))
    | some (w, some r) => some (w.resume t rest (.reply r))

def stepRegistry (t : ThreadId) (name : String) (label : Option String) (rest : List (Frame α)) :
    Option (World α) :=
  match (w.registryOf name).callOf? t with
  | none => none
  | some (.entering _) => (w.onRegistry name t (.enter t)).map (·.1)
  | some (.creating c _) =>
    some (w.constructFrom t c none (.store name :: .registry name label :: rest))
  | some (.stopping held) =>
    some (w.enter held.pool t .shutdown
      (.stopped name :: .release held.pool :: .registry name label :: rest))
  | some (.leaving _) =>
    match w.onRegistry name t (.leave t) with
    | some (w, some (.pool held)) => some (w.take t label held.pool rest)
    | some (w, some (.failed f)) => some (w.resume t rest (failure f))
    | some (w, some (.unwound p)) => some (w.resume t rest (.thrown p))
    | some (w, some .none) => some (w.respond t rest .nothing)
    | some (w, some .done) => some (w.respond t rest .done)
    | _ => none

def stepFrame (t : ThreadId) (rest : List (Frame α)) (signal : Signal α) :
    Frame α → Option (World α)
  | .call p => w.stepCall t p rest
  | .submitted p task =>
    match signal with
    | .reply (.accepted seq) =>
      let handles := match task with
        | some name => w.handles.insert name ⟨p, seq⟩
        | none => w.handles
      some ({ w with handles }.respond t rest .done)
    | _ => some (w.respond t rest (.failed .poolStopped))
  | .copies _ _ _ _ 0 => some (w.resume t rest signal)
  | .copies p task body next (left + 1) =>
    some (w.submit t (.copies p task body (next + 1) left :: rest) p
      (task.map (· ++ toString next)) ⟨body, next⟩)
  | .answer v => some (w.resume t rest ((thrown? signal).elim (.value v) .thrown))
  | .release p =>
    let w := w.resume t rest signal
    let after := ((thrown? signal).map Frame.throw).toList ++ rest
    if w.owned p then some w else some (w.enter p t .shutdown (.free p :: after))
  | .free p =>
    (w.onPool p t .free).map fun (w, _) => w.resume t rest ((thrown? signal).elim .none .thrown)
  | .throw p => some (w.resume t rest (.thrown p))
  | .gate name => if w.isOpen name then some (w.resume t rest .none) else none
  | .turn name => if (w.registryOf name).locked then none else some (w.resume t rest .none)
  | .await h => (w.join h).map fun r => w.respond t rest (.ofResult r)
  | .built p =>
    match signal, w.hosted? p with
    | .reply (.notBuilt e), _ => some (w.resume t rest (.made (.error (.refused (.os e)))))
    | .thrown p, _ => some (w.resume t rest (.made (.error (.unwound p.message))))
    | _, some h => some (w.resume t rest (.made (.ok ⟨p, h.pool.threads⟩)))
    | _, none => none
  | .adopt label =>
    match signal with
    | .made (.ok held) => some (w.take t (some label) held.pool rest)
    | .made (.error f) => some (w.resume t rest (failure f))
    | _ => none
  | .registry name label => w.stepRegistry t name label rest
  | .store name =>
    match signal with
    | .made r => (w.onRegistry name t (.created t r)).map fun (w, _) => w.resume t rest .none
    | _ => none
  | .stopped name =>
    (w.onRegistry name t (.stopped t (thrown? signal))).map fun (w, _) => w.resume t rest .none
  | .body todo values index =>
    match signal with
    | .thrown p => w.endBody t (.unwound p)
    | .value v => w.stepBody t todo (values ++ [v]) index rest
    | _ => w.stepBody t todo values index rest

def stepThread (t : ThreadId) : Option (World α) :=
  match w.thread? t with
  | some ⟨frame :: rest, signal⟩ => w.stepFrame t rest signal frame
  | _ => none

/-- The next step of a worker: it pins itself, looks for tasks and runs their bodies. -/
def stepWorker (p i : Nat) : Option (World α) :=
  let t := ThreadId.worker p i
  match w.hosted? p with
  | none => none
  | some h =>
    match h.pool.workers[i]? with
    | some .starting =>
      let (w, unwound) := w.applyCores h.controller .performance t
      (w.onPool p t (.pin i unwound)).map (·.1)
    | some .ready =>
      (w.onPool p t (.claim i)).map fun (w, _) =>
        match (w.hosted? p).bind (·.pool.workers[i]?) with
        | some (.running task _) => w.resume t [.body task.job.body [] task.job.index] .none
        | _ => w
    | some (.running _ _) => w.stepThread t
    | _ => none

def step : ThreadId → Option (World α)
  | .client n => w.stepThread (.client n)
  | .worker p i => w.stepWorker p i

def threadIds : List ThreadId :=
  let clients := w.threads.filterMap fun (t, _) => match t with
    | .client n => some n
    | .worker _ _ => none
  (clients.mergeSort (· ≤ ·)).map ThreadId.client
    ++ w.pools.flatMap fun h => (List.range h.pool.workers.length).map (.worker h.pool.id ·)

end PinnedPool.Scenario.World
