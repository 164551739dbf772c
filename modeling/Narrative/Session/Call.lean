import Narrative.Session.Step

/-!
This module contains the calls to a session as data, and runs of several calls.
-/

namespace Narrative

inductive Call where
  | beginLoad (id : String)
  | completeLoad (text : String)
  | failLoad (message : String)
  | selectChoice (position : Nat)
  | pollTimers (elapsed : Duration)
  | cancelTimers
  | start
  | load (id : String)
  | choose (position : Nat)
  | tick (elapsed : Duration)
  | cast (name : String)
  | reset

inductive Answer where
  | done
  | request (r : ContentRequest)
  | noRequest
  | count (n : Nat)
  | flag (b : Bool)
  deriving DecidableEq, Repr

namespace Answer

/--
The answer to a call that may begin a load.
-/
def ofRequest? : Option ContentRequest → Answer
  | some r => .request r
  | none => .noRequest

end Answer

namespace Session

def perform (s : Session) : Call → Reply (Except SessionError Answer)
  | .beginLoad id => (s.beginLoad id).map (Except.map .request)
  | .completeLoad text => (s.completeLoad text).map (Except.map (fun _ => .done))
  | .failLoad message => (s.failLoad message).map (Except.map (fun _ => .done))
  | .selectChoice position => (s.selectChoice position).map (Except.map .request)
  | .pollTimers elapsed => (s.pollTimers elapsed).map (Except.map Answer.ofRequest?)
  | .cancelTimers => s.cancelTimers.map (fun n => .ok (.count n))
  | .start => s.start.map (Except.map (fun _ => .done))
  | .load id => (s.load id).map (Except.map (fun _ => .done))
  | .choose position => (s.choose position).map (Except.map (fun _ => .done))
  | .tick elapsed => (s.tick elapsed).map (Except.map .flag)
  | .cast name => (s.cast name).map (fun succeeded => .ok (.flag succeeded))
  | .reset => s.reset.map (fun _ => .ok .done)

def run (s : Session) (calls : List Call) : Session :=
  calls.foldl (fun s call => (s.perform call).session) s

def notices (s : Session) : List Call → List Notice
  | [] => []
  | call :: rest =>
    let reply := s.perform call
    reply.notices ++ notices reply.session rest

end Session

end Narrative
