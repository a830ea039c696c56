import HxDatachannel.Channel.Effect

/-!
# `World.Defs` — connections, channels and one Haxe thread

The program as an application sees it: any number of connections and channels whose native side moves on
its own, the queue of announcements and the queue of events, and one Haxe thread that makes all API calls
and polls. Its stack holds the `processEvents` calls and wrapper constructions in progress; on top of a
handler, and when nothing is in progress, the application may do anything the API allows.

A native callback and a pop are one step here; how threads, locks and tokens implement them is
`EventLoop.Defs`.
-/

namespace HxDatachannel

/-! ## The Haxe thread -/

/-- What the Haxe thread is inside of. -/
inductive HaxeFrame where
  /-- `process_events`, first loop: about to pop an announcement. -/
  | announcing
  /-- The wrapper of channel `d` is being made: by the first loop, or by `createDatachannel`. -/
  | making (d : Nat)
  /-- The application's `onDataChannel` runs for channel `d`. -/
  | onDataChannel (d : Nat)
  /-- `process_events`, second loop: `hl_semaphore_try_acquire` is next. -/
  | draining
  /-- The closure of a popped node runs. -/
  | handling (r : CallbackResult)
deriving DecidableEq, Repr

/-- The application's code runs: nothing of the binding is on top. -/
def applicationRuns : List HaxeFrame → Bool
  | []                      => true
  | .onDataChannel _ :: _   => true
  | .handling _ :: _        => true
  | _                       => false

/-- A handler that was entered. -/
inductive Entry where
  | onDataChannel (d : Nat)
  | handler (r : CallbackResult)
deriving DecidableEq, Repr

/-- The events that were entered, `onDataChannel` left out. -/
def Entry.event : Entry → Option CallbackResult
  | .handler r       => some r
  | .onDataChannel _ => none

/-! ## The program -/

/-- The program. `nullCall` marks the end of a run that called a closure that is NULL. -/
structure World where
  chan          : Nat → Option Chan
  announcements : Fifo DatachannelCallback
  results       : Fifo CallbackResult
  stack         : List HaxeFrame
  entered       : List Entry
  nullCall      : Bool

def World.init : World :=
  { chan := fun _ => none, announcements := .empty, results := .empty, stack := [], entered := [],
    nullCall := false }

/-- What happens next: on native threads (the first three), or on the Haxe thread. -/
inductive WorldAct where
  /-- One of the four callbacks of a connection. -/
  | raise (c : NativeCallback)
  /-- `dataChannelCallback`: the peer created channel `d`. -/
  | announce (d pc : Nat) (label : Bytes)
  /-- A native step of channel `d`. -/
  | native (d : Nat) (a : ChanAct)
  /-- `createDatachannel` or `createDatachannelWithOptions`: libdatachannel returns the new id `d`. -/
  | create (d pc : Nat) (label : Bytes)
  | processEvents
  /-- The next step of the binding's code on top of the stack. -/
  | advance (buffer : Bytes)
  /-- `hl_semaphore_try_acquire` finds no token. -/
  | exhausted
  /-- The application's handler returns. -/
  | ret
  /-- The application's handler throws; the exception leaves `process_events`. -/
  | throw
deriving DecidableEq, Repr

/-- The event of a callback of a connection. -/
def NativeCallback.connectionEvent : NativeCallback → Option CallbackResult
  | .description pc sdp type => some (descriptionCallback pc sdp type)
  | .candidate pc cand mid   => some (candidateCallback pc cand mid)
  | .stateChange pc state    => some (stateChangeCallback pc state)
  | .gatheringState pc state => some (gatheringStateCallback pc state)
  | _                        => none

def ChanAct.isMake : ChanAct → Bool
  | .make _ => true
  | _       => false

namespace World

/-- A step of channel `d` inside the program. -/
def chanStep (w : World) (d : Nat) (a : ChanAct) : Option World :=
  match w.chan d with
  | some c =>
      (c.act d a).map fun out =>
        { w with chan := Function.update w.chan d (some out.1), results := pushAll w.results out.2 }
  | none => none

/-- After a stage of the wrapper of `d`: when it was the last one, `createDatachannel` returns, or the
    closure that made the wrapper calls `onDataChannel`. -/
def made (w : World) (d : Nat) (rest : List HaxeFrame) : World :=
  match w.chan d with
  | some c =>
      if c.finished then
        -- the closure of an incoming channel goes on to call the application
        if c.incoming then
          { w with stack := .onDataChannel d :: rest, entered := w.entered ++ [.onDataChannel d] }
        else { w with stack := rest }
      else w
  | none => w

/-- `hl_dyn_call(*res->closure, …)` for a popped node. -/
def enter (w : World) (r : CallbackResult) (rest : List HaxeFrame) : World :=
  match r.closure.channel with
  | none => { w with stack := .handling r :: rest, entered := w.entered ++ [.handler r] }
  | some d =>
      match w.chan d with
      | some c =>
          if c.installed then
            { w with chan := Function.update w.chan d (some (c.enter r.closure))
                     stack := .handling r :: rest, entered := w.entered ++ [.handler r] }
          -- the field that `res->closure` points to is still NULL
          else { w with nullCall := true }
      | none => { w with nullCall := true }

/-- The next step of the binding's code. -/
def advance (w : World) (buffer : Bytes) : Option World :=
  match w.stack with
  | .announcing :: rest =>
      match w.announcements.pop with
      | some (x, q) => some { w with announcements := q, stack := .making x.dc :: rest }
      -- `break` out of the first loop
      | none        => some { w with stack := .draining :: rest }
  | .making d :: rest => (w.chanStep d (.make buffer)).map fun w' => w'.made d rest
  | .draining :: rest =>
      match w.results.pop with
      | some (r, q) => some ({ w with results := q }.enter r rest)
      | none        => some { w with stack := rest }
  | _ => none

def step (w : World) (a : WorldAct) : Option World :=
  if w.nullCall then none
  else match a with
    | .raise c => c.connectionEvent.map fun r => { w with results := w.results.push r }
    | .announce d pc label =>
        if (w.chan d).isSome then none
        else some { w with chan := Function.update w.chan d (some (.fresh pc label true))
                           announcements := w.announcements.push (dataChannelCallback pc d) }
    | .native d a => if a.isMake then none else w.chanStep d a
    | .create d pc label =>
        if (w.chan d).isSome ∨ !applicationRuns w.stack then none
        else some { w with chan := Function.update w.chan d (some (.fresh pc label false))
                           stack := .making d :: w.stack }
    | .processEvents =>
        if applicationRuns w.stack then some { w with stack := .announcing :: w.stack } else none
    | .advance buffer => w.advance buffer
    | .exhausted =>
        match w.stack with
        | .draining :: rest => some { w with stack := rest }
        | _                 => none
    | .ret =>
        match w.stack with
        | .onDataChannel _ :: rest => some { w with stack := .announcing :: rest }
        | .handling _ :: rest      => some { w with stack := .draining :: rest }
        | _                        => none
    | .throw =>
        match w.stack with
        | .onDataChannel _ :: rest => some { w with stack := rest }
        | .handling _ :: rest      => some { w with stack := rest }
        | _                        => none

/-! ## One channel of the program -/

/-- Channel `d` with its own events. -/
def lane (w : World) (d : Nat) : Option Lane :=
  (w.chan d).map fun c => ⟨c, w.results.filter (CallbackResult.ofChannel d)⟩

end World
end HxDatachannel
