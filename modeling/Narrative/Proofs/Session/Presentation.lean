import Narrative.Proofs.Session.Consistency
import Narrative.Proofs.Session.Polling

/-!
This module contains the presentation on screen: when it began, and how many choices have been resolved since.
All timers that wait belong to it, and it ends with the first choice that is resolved.
-/

namespace Narrative

namespace ActiveContent

variable {content : ActiveContent} {config : Config} {p : Player} {now : Duration}

def timersAt (content : ActiveContent) (config : Config) (p : Player) (now : Duration) : List Timer :=
  (content.views config p).filterMap (·.timerAt? now)

theorem timerAt?_eq_some {view : ChoiceView} {timer : Timer} :
    view.timerAt? now = some timer ↔ view.slot = .authored timer.choice ∧
      ∃ after, view.timeout = some after ∧ timer.deadline = now + after := by
  unfold ChoiceView.timerAt?
  constructor
  · intro h
    split at h
    · next index after hslot htimeout =>
      cases h
      exact ⟨hslot, after, htimeout, rfl⟩
    · cases h
  · rintro ⟨hslot, after, htimeout, hdeadline⟩
    rw [hslot, htimeout]
    dsimp only
    rw [← hdeadline]

/--
The timers of a presentation: one for each choice that is shown with a usable timeout.
-/
theorem mem_timersAt {timer : Timer} : timer ∈ content.timersAt config p now ↔
    ∃ choice after, content.choices[timer.choice]? = some choice ∧ choice.isWellFormed ∧
      (choice.requires.met p ∨ choice.hidden = false) ∧
      choice.timeout.bind Duration.ofSeconds? = some after ∧ timer.deadline = now + after := by
  unfold timersAt
  rw [List.mem_filterMap]
  constructor
  · rintro ⟨view, hmem, htimer⟩
    obtain ⟨hslot, after, htimeout, hdeadline⟩ := timerAt?_eq_some.mp htimer
    obtain ⟨position, hposition⟩ := List.mem_iff_getElem?.mp hmem
    have hauthored := List.mem_of_getElem? (views_of_slot hposition hslot)
    obtain ⟨index, choice, hchoice, hview⟩ := mem_authoredViews.mp hauthored
    obtain ⟨hwf, hshown, rfl⟩ := Choice.view?_eq_some.mp hview
    cases hslot
    exact ⟨choice, after, hchoice, hwf, hshown, htimeout, hdeadline⟩
  · rintro ⟨choice, after, hchoice, hwf, hshown, htimeout, hdeadline⟩
    obtain ⟨view, hview⟩ : ∃ view, choice.view? p timer.choice = some view :=
      ⟨_, Choice.view?_eq_some.mpr ⟨hwf, hshown, rfl⟩⟩
    have hauthored := mem_authoredViews.mpr ⟨timer.choice, choice, hchoice, hview⟩
    obtain ⟨_, _, rfl⟩ := Choice.view?_eq_some.mp hview
    have hviews : content.views config p = content.authoredViews p :=
      views_eq_authoredViews (List.ne_nil_of_mem hauthored)
    rw [← hviews] at hauthored
    exact ⟨_, hauthored, timerAt?_eq_some.mpr ⟨rfl, after, htimeout, hdeadline⟩⟩

theorem nodup_timersAt (content : ActiveContent) (config : Config) (p : Player) (now : Duration) :
    ((content.timersAt config p now).map (·.choice)).Nodup := by
  unfold timersAt
  rw [List.nodup_iff_pairwise_ne, List.pairwise_map]
  by_cases hnil : content.authoredViews p = []
  · rw [views_eq_continueView hnil]
    exact .nil
  · rw [views_eq_authoredViews hnil]
    apply List.Pairwise.filterMap _ _ (pairwise_authoredViews content p)
    rintro v w ⟨i, j, hv, hw, hij⟩ a ha b hb
    obtain ⟨ha, _⟩ := timerAt?_eq_some.mp ha
    obtain ⟨hb, _⟩ := timerAt?_eq_some.mp hb
    rw [hv] at ha
    rw [hw] at hb
    cases ha
    cases hb
    omega

end ActiveContent

/--
What is remembered of the presentation on screen: the time on the clock when it began, and how many choices
have been resolved since.
-/
structure Presentation where
  since : Option Duration := none
  resolved : Nat := 0

namespace Presentation

/--
The presentation after an event. A new one begins when a chapter is reached, and when a chapter is returned to.
-/
def note (presentation : Presentation) (s : Session) : Event → Presentation
  | .took _ _ _ => { presentation with resolved := presentation.resolved + 1 }
  | .reached _ (.chapter _) => ⟨some s.timers.now, 0⟩
  | .returned => if s.active.isSome then ⟨some s.timers.now, 0⟩ else presentation
  | _ => presentation

def along (presentation : Presentation) (s : Session) : List Event → Presentation
  | [] => presentation
  | event :: rest => (presentation.note s event).along (s.after event) rest

end Presentation

namespace Session

variable {s t : Session} {shown : Presentation}

/--
The presentation on screen after events in a session that has presented nothing before them.
-/
def presentation (s : Session) (events : List Event) : Presentation :=
  Presentation.along {} s events

/--
Whether a timer is that of a choice on screen, counted from a time.
-/
def CountsFrom (s : Session) (since : Duration) (timer : Timer) : Prop :=
  ∃ content choice after, s.active = some content ∧ content.choices[timer.choice]? = some choice ∧
    choice.isWellFormed ∧ choice.timeout.bind Duration.ofSeconds? = some after ∧
    timer.deadline = since + after

/--
No timer is stale. Timers wait only while choices are on offer; then each of them is counted from the beginning of
the presentation on screen, no choice has two, and no choice has been resolved yet.
-/
structure Timely (s : Session) (shown : Presentation) : Prop where
  silent : s.phase ≠ .choicesVisible → s.timers.pending = []
  counted : s.phase = .choicesVisible →
    ∃ since, shown.since = some since ∧ ∀ timer ∈ s.timers.pending, s.CountsFrom since timer
  nodup : (s.timers.pending.map (·.choice)).Nodup
  resolved_le : shown.resolved ≤ 1
  unresolved : s.pending = none → s.active.isSome → shown.resolved = 0

theorem timely_new (config : Config) (source : Option ContentSource) (player : Option Player) :
    (Session.new config source player).Timely {} where
  silent := fun _ => rfl
  counted := nofun
  nodup := .nil
  resolved_le := Nat.zero_le 1
  unresolved := fun _ _ => rfl

theorem presenting_timers {content : ActiveContent} (h : s.timers.pending = []) :
    (s.presenting content).timers =
      ⟨s.timers.now, content.timersAt s.config s.player s.timers.now⟩ := by
  unfold presenting
  dsimp
  rw [h]
  rfl

namespace Timely

theorem presenting {content : ActiveContent} (htimers : s.timers.pending = [])
    (hactive : s.active = some content) :
    (s.presenting content).Timely ⟨some s.timers.now, 0⟩ where
  silent := fun h => absurd rfl h
  counted := by
    intro _
    refine ⟨s.timers.now, rfl, ?_⟩
    intro timer htimer
    rw [presenting_timers htimers] at htimer
    obtain ⟨choice, after, hchoice, hwf, _, htimeout, hdeadline⟩ :=
      ActiveContent.mem_timersAt.mp htimer
    exact ⟨content, choice, after, hactive, hchoice, hwf, htimeout, hdeadline⟩
  nodup := by
    rw [presenting_timers htimers]
    apply ActiveContent.nodup_timersAt
  resolved_le := Nat.zero_le 1
  unresolved := fun _ _ => rfl

theorem passing (h : s.Timely shown) (elapsed : Duration) :
    (s.passing elapsed).Timely shown where
  silent := by
    intro hphase
    have hnil := h.silent hphase
    unfold Session.passing Timers.advance
    dsimp
    rw [hnil]
    rfl
  counted := by
    intro hphase
    obtain ⟨since, hsince, hcounted⟩ := h.counted hphase
    refine ⟨since, hsince, ?_⟩
    intro timer htimer
    exact hcounted timer (Timers.mem_advance.mp htimer).1
  nodup := by
    have hsublist := List.filter_sublist (l := s.timers.pending)
      (p := fun timer => !(timer.deadline ≤ s.timers.now + elapsed))
    exact (hsublist.map (·.choice)).nodup h.nodup
  resolved_le := h.resolved_le
  unresolved := h.unresolved

theorem dropped (h : s.Timely shown) : s.cancelTimers.session.Timely shown where
  silent := fun _ => rfl
  counted := by
    intro hphase
    obtain ⟨since, hsince, _⟩ := h.counted hphase
    exact ⟨since, hsince, nofun⟩
  nodup := .nil
  resolved_le := h.resolved_le
  unresolved := h.unresolved

theorem of_silence (htimers : s.timers.pending = []) (hphase : s.phase ≠ .choicesVisible)
    (hresolved : shown.resolved ≤ 1)
    (hunresolved : s.pending = none → s.active.isSome → shown.resolved = 0) :
    s.Timely shown where
  silent := fun _ => htimers
  counted := fun h => absurd h hphase
  nodup := by
    rw [htimers]
    exact .nil
  resolved_le := hresolved
  unresolved := hunresolved

theorem reaching (hs : s.Coherent) (h : s.Timely shown) {request : ContentRequest}
    (document : Document) (hpending : s.pending = some request) :
    (s.reaching request.id document).Timely
      (shown.note s (.reached request.id document)) := by
  have htimers := hs.timers_eq_nil_of_pending hpending
  cases document with
  | chapter chapter =>
    unfold Session.reaching
    apply presenting
    · exact htimers
    · rfl
  | ending ending =>
    apply of_silence
    · exact htimers
    · nofun
    · exact h.resolved_le
    · nofun

theorem returning (hs : s.Coherent) (h : s.Timely shown) {request : ContentRequest}
    (hpending : s.pending = some request) :
    s.returning.Timely (shown.note s .returned) := by
  have htimers := hs.timers_eq_nil_of_pending hpending
  unfold Session.returning Presentation.note
  cases hactive : s.active with
  | some content =>
    apply presenting
    · exact htimers
    · rfl
  | none =>
    apply of_silence
    · exact htimers
    · dsimp
      split <;> decide
    · exact h.resolved_le
    · nofun

theorem changing (hs : s.Coherent) (h : s.Timely shown) (p : Player) (hpending : s.pending = none)
    (hchapter : s.chapter.isSome) : (s.changing p).Timely shown := by
  rw [hs.isSome_chapter, Option.isSome_iff_exists] at hchapter
  obtain ⟨content, hactive⟩ := hchapter
  have hphase : s.phase = .choicesVisible := by
    rw [hs.phase_eq]
    unfold screen
    rw [hpending, hactive]
  rw [changing_of_active p hpending hactive]
  -- The timers go on: they belong to the places of the content, which is not presented anew.
  exact {
    silent := fun hne => absurd rfl hne
    counted := fun _ => h.counted hphase
    nodup := h.nodup
    resolved_le := h.resolved_le
    unresolved := h.unresolved
  }

theorem after (hs : s.Coherent) (h : s.Timely shown) {event : Event} (hoccurs : s.Occurs event) :
    (s.after event).Timely (shown.note s event) := by
  cases hoccurs with
  | passed elapsed => exact h.passing elapsed
  | dropped => exact h.dropped
  | began id hpending =>
    apply of_silence
    · rfl
    · nofun
    · exact h.resolved_le
    · nofun
  | took hpending hchoice hsuccessor =>
    obtain ⟨_, content, hactive, _⟩ := choiceAt?_eq_some.mp hchoice
    have hzero := h.unresolved hpending (by rw [hactive]; rfl)
    apply of_silence
    · rfl
    · nofun
    · show shown.resolved + 1 ≤ 1
      omega
    · nofun
  | reached hpending hdocument => exact h.reaching hs _ hpending
  | returned hpending => exact h.returning hs hpending
  | cast hpending hchapter hspell =>
    apply h.changing hs _ hpending
    rw [hchapter]
    rfl
  | reset =>
    apply of_silence
    · rfl
    · nofun
    · exact h.resolved_le
    · nofun

theorem path {events : List Event} (hs : s.Coherent) (h : s.Timely shown)
    (hpath : Path s events t) : t.Timely (shown.along s events) := by
  induction hpath generalizing shown with
  | nil s => exact h
  | cons hoccurs _ ih => exact ih (hs.after hoccurs) (h.after hs hoccurs)

end Timely

theorem Path.of_begins {events first : List Event} (h : Path s events t) (hbegins : first <+: events) :
    ∃ u, Path s first u := by
  induction h generalizing first with
  | nil s =>
    rw [List.prefix_nil] at hbegins
    subst hbegins
    exact ⟨s, .nil s⟩
  | @cons s t event rest hoccurs _ ih =>
    cases first with
    | nil => exact ⟨s, .nil s⟩
    | cons head tail =>
      obtain ⟨rfl, htail⟩ := List.cons_prefix_cons.mp hbegins
      obtain ⟨u, hu⟩ := ih htail
      exact ⟨u, .cons hoccurs hu⟩

/--
How a host call resolves a choice.
-/
inductive Resolves (s : Session) : Call → Nat → Prop where
  | click {position index : Nat} (h : s.clicked? position = some index) :
      Resolves s (.selectChoice position) index
  | timeout {elapsed : Duration} {index : Nat} (h : s.fired? elapsed = some index) :
      Resolves s (.pollTimers elapsed) index

theorem resolves_of_took {call : Call} {chapter : Chapter} {choice : Choice} {id : String}
    (h : .took chapter choice id ∈ s.hostEvents call) :
    ∃ index, s.Resolves call index ∧ s.choiceAt? index = some (chapter, choice) := by
  cases brings_of_mem h with
  | @clicked _ index _ _ hclicked hchoice => exact ⟨index, .click hclicked, hchoice⟩
  | @fired _ index _ _ hfired hchoice => exact ⟨index, .timeout hfired, hchoice⟩

theorem Coherent.fallsDue_of_pollTimers (hs : s.Coherent) {elapsed : Duration} {chapter : Chapter}
    {choice : Choice} {id : String} (h : .took chapter choice id ∈ s.hostEvents (.pollTimers elapsed)) :
    s.FallsDue elapsed chapter choice := by
  obtain ⟨index, hresolves, hchoice⟩ := resolves_of_took h
  cases hresolves with
  | timeout hfired => exact hs.fallsDue hfired hchoice

theorem Coherent.fallsDue_of_tick (hs : s.Coherent) {elapsed : Duration} {chapter : Chapter}
    {choice : Choice} {id : String} (h : .took chapter choice id ∈ s.trace [.tick elapsed]) :
    s.FallsDue elapsed chapter choice := by
  cases hsource : s.source with
  | none =>
    rw [trace_of_noSource rfl hsource] at h
    cases h
  | some source =>
    by_cases hrequest : ∃ request, (s.perform (.pollTimers elapsed)).answer = .ok (.request request)
    · obtain ⟨request, hrequest⟩ := hrequest
      rw [trace_of_request rfl hsource hrequest] at h
      rcases List.mem_append.mp h with h | h
      · exact hs.fallsDue_of_pollTimers h
      · -- What the source answers resolves no choice.
        obtain ⟨index, hresolves, _⟩ := resolves_of_took h
        unfold ContentSource.settle at hresolves
        split at hresolves <;> cases hresolves
    · rw [trace_of_no_request rfl hsource hrequest] at h
      exact hs.fallsDue_of_pollTimers h

/--
What a click resolves, and what the trace tells of it. Where the click asks for a document, it goes on from a chapter
without choices, or it takes a choice on screen. Otherwise it resolves nothing.
-/
structure ResolvesClicked (s : Session) (position : Nat) : Prop where
  asked : ∀ request, (s.selectChoice position).answer = .ok request →
    ((s.selectChoice position).session = s.loading request.id ∧
      s.trace [.selectChoice position] = [.began request.id]) ∨
    ∃ index chapter choice, s.choiceAt? index = some (chapter, choice) ∧
      (s.selectChoice position).session = s.taking chapter choice request.id ∧
      s.trace [.selectChoice position] = [.took chapter choice request.id]
  refused : ∀ e, (s.selectChoice position).answer = .error e →
    (s.selectChoice position).session = s ∧ s.trace [.selectChoice position] = []

theorem trace_selectChoice {position : Nat} {request : ContentRequest}
    (h : (s.selectChoice position).answer = .ok request) :
    s.trace [.selectChoice position] = [s.beginning (s.clicked? position) request.id] := by
  rw [trace_of_host rfl]
  unfold hostEvents perform
  rw [Reply.answer_map, h]
  rfl

theorem resolvesClicked_of_report {position : Nat} {e : SessionError} (h : s.selectChoice position = s.report e) :
    s.ResolvesClicked position where
  asked := by
    intro request hanswer
    rw [h] at hanswer
    cases hanswer
  refused := by
    intro _ _
    rw [trace_of_host rfl]
    unfold hostEvents perform
    rw [Reply.answer_map, h]
    exact ⟨rfl, rfl⟩

theorem resolvesClicked (s : Session) (position : Nat) : s.ResolvesClicked position := by
  cases s.click position with
  | refused hselect _ => exact resolvesClicked_of_report hselect
  | @onward next hpending hclicked hselect =>
    rw [beginLoad_of_none next hpending] at hselect
    constructor
    · intro request h
      rw [trace_selectChoice h, hclicked, beginning_none]
      rw [hselect] at h ⊢
      cases h
      exact .inl ⟨rfl, rfl⟩
    · intro e h
      rw [hselect] at h
      cases h
  | @taken index hpending hclicked =>
    have hselect := selectChoice_of_clicked hclicked
    cases taking_of_none index hpending with
    | refused htake _ => exact resolvesClicked_of_report (hselect.trans htake)
    | @taken chapter choice _ hchoice _ hanswer hsession =>
      constructor
      · intro request h
        rw [trace_selectChoice h, hclicked, beginning_some _ hchoice]
        rw [hselect] at h ⊢
        rw [hanswer] at h
        cases h
        exact .inr ⟨index, chapter, choice, hchoice, hsession, rfl⟩
      · intro e h
        rw [hselect, hanswer] at h
        cases h

/--
In every session that calls can lead to, no timer is stale: when time passes, only a choice that stands on screen is
resolved, and never during a load. The trace tells of all that is resolved and leads to the session, and at any point
of it at most one choice has been resolved since the last presentation began.
-/
theorem timely_run (config : Config) (source : Option ContentSource) (player : Option Player)
    (calls : List Call) :
    let fresh := Session.new config source player
    let s := fresh.run calls
    s.Timely (fresh.presentation (fresh.trace calls)) ∧
      (∀ elapsed, s.ResolvesDue elapsed) ∧ (∀ position, s.ResolvesClicked position) ∧
      (∀ elapsed chapter choice id,
        .took chapter choice id ∈ s.trace [.pollTimers elapsed] ∨
          .took chapter choice id ∈ s.trace [.tick elapsed] → s.FallsDue elapsed chapter choice) ∧
      Path fresh (fresh.trace calls) s ∧
      ∀ events, events <+: fresh.trace calls → (fresh.presentation events).resolved ≤ 1 := by
  intro fresh s
  have hfresh : fresh.Coherent := coherent_new config source player
  have hs : s.Coherent := hfresh.run calls
  have htimely : fresh.Timely {} := timely_new config source player
  have hpath : Path fresh (fresh.trace calls) s := path_trace hfresh calls
  refine ⟨htimely.path hfresh hpath, hs.resolvesDue, s.resolvesClicked, ?_, hpath, ?_⟩
  · intro elapsed chapter choice id h
    rcases h with h | h
    · rw [trace_of_host rfl] at h
      exact hs.fallsDue_of_pollTimers h
    · exact hs.fallsDue_of_tick h
  · intro events hbegins
    obtain ⟨t, hfirst⟩ := hpath.of_begins hbegins
    exact (htimely.path hfresh hfirst).resolved_le

end Session

end Narrative
