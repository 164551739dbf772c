import Narrative.Proofs.Session.Firing
import Narrative.Proofs.Session.Offer
import Narrative.Proofs.Session.Rejection
import Narrative.Proofs.Session.Timing

/-!
This module contains choices that are taken on their own, when their timers fall due. Each of them could as well have
been clicked, and the click would have done the same.
-/

namespace Narrative.Session

variable {s : Session} {elapsed : Duration}

/--
The choice at a place falls due and is taken, and a click at a position would have taken it: it is answered with the
same request, sends the same notices, and leaves the same session but for the clock.
-/
structure TimesOut (s : Session) (elapsed : Duration) (request : ContentRequest) (index position : Nat) :
    Prop where
  fired : s.fired? elapsed = some index
  shown : ∃ view, s.choices[position]? = some view ∧ view.slot = .authored index ∧ view.enabled = true
  answer_eq : (s.selectChoice position).answer = .ok request
  notices_eq : (s.selectChoice position).notices = (s.pollTimers elapsed).notices
  session_eq : (s.pollTimers elapsed).session =
    (s.selectChoice position).session.atTime (s.timers.now + elapsed)
  timers_eq_nil : (s.selectChoice position).session.timers.pending = []

theorem passing_of_nil (elapsed : Duration) (h : s.timers.pending = []) :
    s.passing elapsed = s.atTime (s.timers.now + elapsed) := by
  rw [passing_of_waiting elapsed h, waitingAt_eq_atTime _ h]

/--
A choice is taken alike before time passes and after.
-/
theorem takeChoice_passing (s : Session) (elapsed : Duration) (index : Nat) :
    (s.passing elapsed).takeChoice index =
      (s.takeChoice index).retimed (fun timers => (timers.advance elapsed).2) :=
  takeChoice_retimed (f := fun timers => (timers.advance elapsed).2) (fun _ => rfl) s index

/--
The timers of a presentation belong to choices that are well formed, so a choice that fires is on offer.
-/
theorem Coherent.clicked?_of_fired {shown : Presentation} (hs : s.Coherent) (htimely : s.Timely shown)
    {index : Nat} (h : s.fired? elapsed = some index) : ∃ position, s.clicked? position = some index := by
  obtain ⟨timer, hmem, _, rfl⟩ := timer_of_fired h
  have hphase := hs.phase_of_fired h
  obtain ⟨_, _, hcounted⟩ := htimely.counted hphase
  obtain ⟨content, choice, _, hactive, hchoice, hwf, _, _⟩ := hcounted timer hmem
  have hopen : s.isOpen timer.choice := by
    unfold fired? at h
    exact List.find?_some h
  have hmet : choice.requires.met s.player := by
    unfold isOpen at hopen
    rw [hactive, Option.bind_some, hchoice] at hopen
    exact hopen
  obtain ⟨position, hclicked, _⟩ := hs.clickable hphase hactive hchoice hwf hmet
  exact ⟨position, hclicked⟩

theorem Coherent.timesOut {shown : Presentation} (hs : s.Coherent) (htimely : s.Timely shown)
    {request : ContentRequest} (h : (s.pollTimers elapsed).answer = .ok (some request)) :
    ∃ index position, s.TimesOut elapsed request index position := by
  cases hfired : s.fired? elapsed with
  | none =>
    rw [pollTimers_of_none hfired] at h
    cases h
  | some index =>
    obtain ⟨position, hclicked⟩ := hs.clicked?_of_fired htimely hfired
    obtain ⟨hpending, _, hshown⟩ := clicked?_eq_some.mp hclicked
    have hselect := selectChoice_of_clicked hclicked
    have hpoll := pollTimers_of_some hfired
    rw [takeChoice_passing] at hpoll
    rw [hpoll] at h
    cases taking_of_none index hpending with
    | refused htake _ =>
      rw [htake] at h
      cases h
    | @taken chapter choice successor _ _ hanswer hsession =>
      have hrequest : request = .ofId successor.id := by
        unfold Reply.retimed at h
        rw [Reply.answer_map, hanswer] at h
        cases h
        rfl
      -- The choice drops all timers, so that no others fall due.
      have htimers : (s.takeChoice index).session.timers = s.timers.clear := by
        rw [hsession]
        rfl
      have hnil : (s.takeChoice index).session.timers.pending = [] := by
        rw [htimers]
        rfl
      refine ⟨index, position, hfired, hshown, ?_, ?_, ?_, ?_⟩
      · rw [hselect, hanswer, hrequest]
      · rw [hselect, hpoll]
        rfl
      · rw [hselect, hpoll]
        have hpassing := passing_of_nil elapsed hnil
        rw [htimers] at hpassing
        exact hpassing
      · rw [hselect]
        exact hnil

/--
In every session that calls can lead to, a choice that is taken when time passes is one that is on offer, and to
click it does the same.
-/
theorem timesOut_run (config : Config) (source : Option ContentSource) (player : Option Player)
    (calls : List Call) (elapsed : Duration) (request : ContentRequest)
    (h : (((Session.new config source player).run calls).pollTimers elapsed).answer = .ok (some request)) :
    ∃ index position,
      ((Session.new config source player).run calls).TimesOut elapsed request index position := by
  have hfresh := coherent_new config source player
  have htimely := (timely_new config source player).path hfresh (path_trace hfresh calls)
  exact (hfresh.run calls).timesOut htimely h

/--
A chapter with a choice that is taken after a second.
-/
def ferry : String :=
  "\x7b\"id\": \"ferry\", \"text\": \"The rope creaks.\", \"background\": \"river\", \"choices\": [\x7b" ++
    "\"text\": \"Hold on.\", \"next\": \"bank\"\x7d, \x7b" ++
    "\"text\": \"Let go.\", \"next\": \"river\", \"effects\": \x7b\"gold\": -1\x7d, \"timeout\": 1\x7d]\x7d"

theorem timesOut_run_ferry :
    let s := (Session.new .builtin none none).run [.beginLoad "ferry", .completeLoad ferry]
    (s.pollTimers second).answer = .ok (some (.ofId "river")) ∧
      ∃ index position, s.TimesOut second (.ofId "river") index position := by
  intro s
  have hanswer : (s.perform (.pollTimers second)).answer = .ok (.request (.ofId "river")) :=
    answer_of_toOption (by decide +kernel)
  obtain ⟨answer, hpoll, hrequest⟩ := Reply.answer_map_eq_ok.mp hanswer
  cases answer with
  | none => cases hrequest
  | some request =>
    cases hrequest
    exact ⟨hpoll, timesOut_run .builtin none none _ second _ hpoll⟩

end Narrative.Session
