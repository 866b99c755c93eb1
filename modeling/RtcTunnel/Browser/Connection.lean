import RtcTunnel.Core.Text
import RtcTunnel.Core.Tunnel

/-!
# One connection of the browser provider

`openBrowserConnection` once its peer connection and its data channel exist. `close` of
either may fire events before it returns, and so may whatever the caller does in its
callbacks; the rest of the suspended function is kept on a stack, as in the driver.
-/

namespace RtcTunnel.Browser

open RtcTunnel.Core

set_option autoImplicit false

inductive ReadyState where
  | connecting
  | «open»
  | closing
  | closed
  deriving DecidableEq

inductive ConnectionState where
  | new
  | connecting
  | connected
  | disconnected
  | failed
  | closed
  deriving DecidableEq

/-- Who ended the connection: `fail`, or `close` of the handle. -/
inductive Ending where
  | failed (reason : Text)
  | «local»
  deriving DecidableEq

/-- The reason that `onClose` is given. -/
def Ending.reason : Ending → Text
  | .failed reason => reason
  | .local => "local".toList

/-- What a connection does. `ended` is no call: it is where `closed` is set. -/
inductive Effect where
  | ended (by' : Ending)
  | channelClose
  | pcClose
  | resolve
  | reject (message : Text)
  | onOpen
  | onPacket (data : Bytes)
  | onClose (reason : Text)
  | channelSend (data : Bytes)
  deriving DecidableEq

inductive Task where
  /-- A callback of the caller, or `close` of the channel or the peer connection. -/
  | callback
  /-- The end behind `channel.close`. -/
  | closePc (by' : Ending)
  /-- The end behind `pc.close`. -/
  | report (by' : Ending)
  deriving DecidableEq

structure Connection where
  settled : Bool
  opened : Bool
  closed : Bool
  timerArmed : Bool
  /-- The platform has fired `onopen`. -/
  fired : Bool
  stack : List Task
  log : List Effect

namespace Connection

def start : Connection where
  settled := false
  opened := false
  closed := false
  timerArmed := true
  fired := false
  stack := []
  log := []

def record (d : Connection) (e : Effect) : Connection := { d with log := d.log ++ [e] }

def push (d : Connection) (tasks : List Task) : Connection := { d with stack := tasks ++ d.stack }

/-- The end up to `channel.close`, which `fail` and `close` of the handle share. -/
def shut (d : Connection) (by' : Ending) : Connection :=
  (({ d with closed := true, timerArmed := false }.record (.ended by')).record .channelClose).push
    [.callback, .closePc by']

def fail (d : Connection) (reason : Text) : Connection :=
  if d.closed then d else d.shut (.failed reason)

/-- What `fail` and `close` of the handle do behind `pc.close`. -/
def report (d : Connection) : Ending → Connection
  | .failed reason =>
    if !d.settled then
      { d with settled := true }.record
        (.reject ("browser relay closed before opening: ".toList ++ reason))
    else if d.opened then (d.record (.onClose reason)).push [.callback]
    else d
  | .local => (d.record (.onClose "local".toList)).push [.callback]

def exec (d : Connection) : Task → Connection
  | .callback => d
  | .closePc by' => (d.record .pcClose).push [.callback, .report by']
  | .report by' => d.report by'

def onopen (d : Connection) : Connection :=
  if d.closed then d
  else
    (({ d with opened := true, timerArmed := false, settled := true }.record .resolve).record
      .onOpen).push [.callback]

/-- The data of a message, if it is an `ArrayBuffer`. -/
def onmessage (d : Connection) (data : Option Bytes) : Connection :=
  if d.closed then d
  else
    match data with
    | some data => (d.record (.onPacket data)).push [.callback]
    | none => d

def onclose (d : Connection) : Connection :=
  if d.closed then d else d.fail "remote".toList

def onconnectionstatechange (d : Connection) (state : ConnectionState) : Connection :=
  match state with
  | .failed => d.fail "failed".toList
  | .disconnected => d.fail "disconnected".toList
  | _ => d

def handleSend (d : Connection) (readyState : ReadyState) (data : Bytes) : Connection :=
  if d.closed || readyState ≠ .open then d else d.record (.channelSend data)

def handleClose (d : Connection) : Connection :=
  if d.closed then d else d.shut .local

inductive Label where
  | advance
  | ret
  | open
  | message (data : Option Bytes)
  | close
  | stateChange (state : ConnectionState)
  | timer
  | negotiationFails (message : Text)
  | send (readyState : ReadyState) (data : Bytes)
  | handleClose

/-- No code of the provider is running. -/
def idle (d : Connection) : Bool := d.stack.isEmpty

/-- Code outside the provider may run. -/
def outside (d : Connection) : Bool := d.stack.isEmpty || d.stack.head? = some .callback

/-- What the platform or the caller does. `onopen` fires at most once, and no message
comes before it; the caller has the handle once the promise is resolved. -/
def enter (d : Connection) : Label → Connection
  | .open => if d.fired then d else { d with fired := true }.onopen
  | .message data => if d.fired then d.onmessage data else d
  | .close => d.onclose
  | .stateChange state => d.onconnectionstatechange state
  | .timer => if d.timerArmed then { d with timerArmed := false }.fail "timeout".toList else d
  | .negotiationFails message => d.fail message
  | .send readyState data => if d.opened then d.handleSend readyState data else d
  | .handleClose => if d.opened then d.handleClose else d
  | _ => d

def step (d : Connection) : Label → Connection
  | .advance =>
    match d.stack with
    | [] => d
    | .callback :: _ => d
    | task :: rest => { d with stack := rest }.exec task
  | .ret =>
    match d.stack with
    | .callback :: rest => { d with stack := rest }
    | _ => d
  | l => if d.outside then d.enter l else d

end Connection

end RtcTunnel.Browser
