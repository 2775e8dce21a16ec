import SceneEditor.Proofs.Script.Told
import SceneEditor.Proofs.Value.Showable

namespace SceneEditor

namespace Bridge

/-- What a call of a handler comes to: what it tells the bridge, whether it fails, and what it
leaves outside. -/
structure Reaction (η ω : Type) where
  moves : List (Move η)
  answer : Except Cause Unit
  outside : ω

/-- How the handlers react, each to what it is handed and to what there is when it is called, and
how a failure is reported, which may fail as well. -/
structure Handlers (η ω : Type) where
  react : Link η → List Argument → Bridge η → ω → Reaction η ω
  report : Signal → List Argument → Cause → ω → Except Cause Unit × ω

structure Call (η ω : Type) where
  link : Link η
  arguments : List Argument
  bridge : Bridge η
  outside : ω
  moves : List (Move η)

structure History (η ω : Type) where
  bridge : Bridge η
  outside : ω
  moves : List (Move η)
  calls : List (Call η ω)

inductive Act (η : Type) where
  | move (m : Move η)
  | emit (signal : Signal) (arguments : List Argument)

namespace History

variable {η ω : Type}

def start (x : ω) : History η ω := ⟨.empty, x, [], []⟩

def move (w : History η ω) (ms : List (Move η)) : History η ω :=
  { w with bridge := ms.foldl Bridge.move w.bridge, moves := w.moves ++ ms }

def called (w : History η ω) (link : Link η) (arguments : List Argument) (r : Reaction η ω) :
    History η ω :=
  let called : History η ω := { w with
    outside := r.outside
    calls := w.calls ++ [⟨link, arguments, w.bridge, w.outside, w.moves⟩] }
  called.move r.moves

end History

namespace Handlers

open Effect

variable {η ω : Type} {w : History η ω} {signal : Signal} {arguments : List Argument}

def call (c : Handlers η ω) (arguments : List Argument) (link : Link η) :
    Effect (History η ω) Unit := do
  let w ← get
  let r := c.react link arguments w.bridge w.outside
  set (w.called link arguments r)
  r.answer

def reportFailure (c : Handlers η ω) (signal : Signal) (arguments : List Argument) (e : Cause) :
    Effect (History η ω) Unit := do
  let w ← get
  let (answer, x) := c.report signal arguments e w.outside
  set { w with outside := x }
  answer

def emit (c : Handlers η ω) (signal : Signal) (arguments : List Argument) :
    Effect (History η ω) Unit := do
  (← get).bridge.deliver signal (c.call arguments) (c.reportFailure signal arguments)

def act (c : Handlers η ω) (w : History η ω) : Act η → History η ω
  | .move m => w.move [m]
  | .emit signal arguments => ((c.emit signal arguments).runOn w).2

def run (c : Handlers η ω) (w : History η ω) (acts : List (Act η)) : History η ω :=
  acts.foldl c.act w

theorem bridge_move (h : w.bridge = .replay w.moves) (ms : List (Move η)) :
    (w.move ms).bridge = .replay (w.move ms).moves := by
  rw [History.move, Bridge.replay, List.foldl_append, ← Bridge.replay, ← h]

theorem runOn_guarded (c : Handlers η ω) (signal : Signal) (arguments : List Argument)
    (link : Link η) (w : History η ω) :
    let r := c.react link arguments w.bridge w.outside
    runOn (tryCatch (c.call arguments link) (c.reportFailure signal arguments)) w =
      match r.answer with
      | .ok _ => (.ok (), w.called link arguments r)
      | .error e => ((c.report signal arguments e r.outside).1,
          { w.called link arguments r with outside := (c.report signal arguments e r.outside).2 }) := by
  intro r
  have hcall : (c.call arguments link).runOn w = (r.answer, w.called link arguments r) := rfl
  rw [runOn_tryCatch, hcall]
  cases r.answer <;> rfl

structure Delivering (w : History η ω) (arguments : List Argument) (done : List (Link η))
    (v : History η ω) : Prop where
  called : ∃ called, v.calls = w.calls ++ called ∧ called.map Call.link = done ∧
    ∀ call ∈ called, call.arguments = arguments ∧ call.bridge = .replay call.moves
  bridge_eq : v.bridge = .replay v.moves

namespace Delivering

variable {v : History η ω} {done : List (Link η)}

theorem withOutside (h : Delivering w arguments done v) (x : ω) :
    Delivering w arguments done { v with outside := x } := ⟨h.called, h.bridge_eq⟩

theorem called_reaction (h : Delivering w arguments done v) (link : Link η) (r : Reaction η ω) :
    Delivering w arguments (done ++ [link]) (v.called link arguments r) := by
  obtain ⟨called, hcalls, hlinks, hall⟩ := h.called
  refine ⟨⟨called ++ [⟨link, arguments, v.bridge, v.outside, v.moves⟩], ?_, ?_, ?_⟩, ?_⟩
  · rw [← List.append_assoc, ← hcalls]
    rfl
  · rw [List.map_append, hlinks]
    rfl
  · rw [List.forall_mem_append, List.forall_mem_singleton]
    exact ⟨hall, rfl, h.bridge_eq⟩
  · exact bridge_move h.bridge_eq _

theorem guarded (h : Delivering w arguments done v) (c : Handlers η ω) (signal : Signal)
    (link : Link η) : Delivering w arguments (done ++ [link])
      (runOn (tryCatch (c.call arguments link) (c.reportFailure signal arguments)) v).2 := by
  rw [runOn_guarded]
  have hcalled := h.called_reaction link (c.react link arguments v.bridge v.outside)
  split
  · exact hcalled
  · exact hcalled.withOutside _

end Delivering

/-- The last call has failed, and so has the report on it. -/
def StopsAt (c : Handlers η ω) (signal : Signal) (called : List (Call η ω))
    (answer : Except Cause Unit) : Prop :=
  ∃ last e f, called.getLast? = some last ∧
    (c.react last.link last.arguments last.bridge last.outside).answer = .error e ∧
    (c.report signal last.arguments e
      (c.react last.link last.arguments last.bridge last.outside).outside).1 = .error f ∧
    answer = .error f

theorem emit_cases (c : Handlers η ω) (signal : Signal) (arguments : List Argument)
    (h : w.bridge = .replay w.moves) : let r := (c.emit signal arguments).runOn w
    r.2.bridge = .replay r.2.moves ∧ ∃ called left, r.2.calls = w.calls ++ called ∧
      called.map Call.link ++ left = w.bridge.observers signal ∧
      (∀ call ∈ called, call.arguments = arguments ∧ call.bridge = .replay call.moves) ∧
      (r.1 = .ok () ∧ left = [] ∨ c.StopsAt signal called r.1) := by
  intro r
  have hr : r = (callEach (c.call arguments) (c.reportFailure signal arguments)
      (w.bridge.observers signal)).runOn w := rfl
  have hstart : Delivering w arguments [] w :=
    ⟨⟨[], (List.append_nil _).symm, rfl, List.forall_mem_nil _⟩, h⟩
  rcases runOn_callEach_cases _ _ (P := Delivering w arguments)
      (fun link _ done v hv => hv.guarded c signal link) hstart with
    ⟨v, hv, hdelivering⟩ | ⟨before, link, after, u, f, v, hlinks, hu, hfailed, hv⟩
  · rw [hr, hv]
    obtain ⟨called, hcalls, hlinks, hall⟩ := hdelivering.called
    exact ⟨hdelivering.bridge_eq, called, [], hcalls, by rw [hlinks, List.append_nil]; rfl, hall,
      .inl ⟨rfl, rfl⟩⟩
  · rw [hr, hv, hlinks]
    have hlast := hu.guarded c signal link
    rw [runOn_guarded] at hfailed hlast
    rw [List.nil_append] at hlast
    split at hfailed
    · cases hfailed
    · next e he =>
      obtain ⟨hreport, rfl⟩ := Prod.mk.inj hfailed
      simp only [he] at hlast
      obtain ⟨called, hcalls, hbefore, hall⟩ := hu.called
      let last : Call η ω := ⟨link, arguments, u.bridge, u.outside, u.moves⟩
      refine ⟨hlast.bridge_eq, called ++ [last], after, ?_, ?_, ?_,
        .inr ⟨last, e, f, List.getLast?_concat, he, hreport, rfl⟩⟩
      · rw [← List.append_assoc, ← hcalls]
        rfl
      · rw [List.map_append, hbefore, List.nil_append, List.append_assoc]
        rfl
      · rw [List.forall_mem_append, List.forall_mem_singleton]
        exact ⟨hall, rfl, hu.bridge_eq⟩

theorem bridge_run (c : Handlers η ω) (h : w.bridge = .replay w.moves) (acts : List (Act η)) :
    (c.run w acts).bridge = .replay (c.run w acts).moves := by
  induction acts generalizing w with
  | nil => exact h
  | cons a acts ih =>
    apply ih
    cases a with
    | move m => exact bridge_move h [m]
    | emit signal arguments => exact (c.emit_cases signal arguments h).1

/-- The observers of a workspace as handlers, with the workspace for what is outside. They tell the
bridge what leads from the one that they find to the one that they leave. -/
noncomputable def ofObservers (depth : Nat) : Handlers Observer Workspace where
  react link arguments _ w :=
    let r := (Script.call (Script.deliver depth) arguments link).runOn w
    ⟨Classical.choose (Script.keeps_call (Script.keeps_deliver depth) arguments link w w (.refl w)),
      r.1, r.2⟩
  report signal arguments e w := (Script.report signal arguments e).runOn w

variable {h : History Observer Workspace} (depth : Nat)

theorem bridge_called_ofObservers (hh : h.bridge = h.outside.session.bridge)
    (arguments : List Argument) (link : Link Observer) :
    let t := h.called link arguments ((ofObservers depth).react link arguments h.bridge h.outside)
    t.bridge = t.outside.session.bridge := by
  intro t
  have hmoves := Classical.choose_spec (Script.keeps_call (Script.keeps_deliver depth) arguments
    link h.outside h.outside (.refl h.outside))
  have ht : t.bridge = ((ofObservers depth).react link arguments h.bridge h.outside).moves.foldl
      Bridge.move h.bridge := rfl
  rw [ht, hh]
  exact hmoves.symm

theorem bridge_report (signal : Signal) (arguments : List Argument) (e : Cause) (w : Workspace) :
    ((Script.report signal arguments e).runOn w).2.session.bridge = w.session.bridge := by
  simp only [Script.report, runOn_bind, runOn_get]
  split <;> rfl

theorem guarded_ofObservers (hh : h.bridge = h.outside.session.bridge) (signal : Signal)
    (arguments : List Argument) (link : Link Observer) :
    let c := ofObservers depth
    let r := runOn (tryCatch (c.call arguments link) (c.reportFailure signal arguments)) h
    runOn (tryCatch (Script.call (Script.deliver depth) arguments link)
        (Script.report signal arguments)) h.outside = (r.1, r.2.outside) ∧
      r.2.bridge = r.2.outside.session.bridge := by
  intro c r
  have hbridge := bridge_called_ofObservers depth hh arguments link
  have hr : r = _ := c.runOn_guarded signal arguments link h
  have hcall : (Script.call (Script.deliver depth) arguments link).runOn h.outside =
      ((c.react link arguments h.bridge h.outside).answer,
        (c.react link arguments h.bridge h.outside).outside) := rfl
  rw [hr, runOn_tryCatch, hcall]
  cases (c.react link arguments h.bridge h.outside).answer with
  | ok _ => exact ⟨rfl, hbridge⟩
  | error e => exact ⟨rfl, hbridge.trans (bridge_report signal arguments e _).symm⟩

theorem callEach_ofObservers (hh : h.bridge = h.outside.session.bridge) (signal : Signal)
    (arguments : List Argument) (links : List (Link Observer)) :
    let c := ofObservers depth
    let r := (callEach (c.call arguments) (c.reportFailure signal arguments) links).runOn h
    (callEach (Script.call (Script.deliver depth) arguments) (Script.report signal arguments)
      links).runOn h.outside = (r.1, r.2.outside) ∧ r.2.bridge = r.2.outside.session.bridge := by
  intro c
  induction links generalizing h with
  | nil => exact ⟨rfl, hh⟩
  | cons link links ih =>
    obtain ⟨hfirst, hbridge⟩ := guarded_ofObservers depth hh signal arguments link
    simp only [runOn_callEach_cons]
    rw [hfirst]
    revert hbridge
    rcases runOn (tryCatch (c.call arguments link) (c.reportFailure signal arguments)) h with
      ⟨_ | _, t⟩
    · exact fun hbridge => ⟨rfl, hbridge⟩
    · exact fun hbridge => ih hbridge

/-- What a delivery comes to. The handlers are called that were connected to the signal and not
disconnected when it started, the oldest first, and each with what it was told to be handed. The last
ones are left out if the failure of one before them cannot be reported. -/
def Delivers (c : Handlers η ω) (w : History η ω) (signal : Signal) (arguments : List Argument) :
    Prop :=
  let r := (c.emit signal arguments).runOn w
  ∃ called left, r.2.calls = w.calls ++ called ∧
    (called.map Call.link ++ left).Pairwise (·.number < ·.number) ∧
    (∀ link, link ∈ called.map Call.link ++ left ↔
      Move.Open w.moves link ∧ link.signal = signal) ∧
    (∀ call ∈ called, call.arguments = arguments ∧ call.bridge = .replay call.moves) ∧
    (r.1 = .ok () ∧ left = [] ∨ c.StopsAt signal called r.1)

theorem delivers_of_replay (c : Handlers η ω) (h : w.bridge = .replay w.moves) (signal : Signal)
    (arguments : List Argument) : c.Delivers w signal arguments := by
  have hw := Bridge.records_replay w.moves
  rw [← h] at hw
  obtain ⟨-, called, left, hcalls, hlinks, hall, hend⟩ := c.emit_cases signal arguments h
  refine ⟨called, left, hcalls, ?_, ?_, hall, hend⟩
  · rw [hlinks]
    exact hw.sorted.filter _
  · intro link
    rw [hlinks, hw.mem_observers_iff]

theorem deliver_ofObservers {u : Workspace} {ms : List (Move Observer)}
    (hu : u.session.bridge = .replay ms) (signal : Signal) (arguments : List Argument) :
    let r := ((ofObservers depth).emit signal arguments).runOn ⟨.replay ms, u, ms, []⟩
    (Script.deliver (depth + 1) signal arguments).runOn u = (r.1, r.2.outside) ∧
      r.2.outside.session.bridge = .replay r.2.moves := by
  intro r
  let h : History Observer Workspace := ⟨.replay ms, u, ms, []⟩
  obtain ⟨hrun, hbridge⟩ := callEach_ofObservers depth (h := h) hu.symm signal
    arguments (h.bridge.observers signal)
  have hmoves := ((ofObservers depth).emit_cases (w := h) signal arguments rfl).1
  refine ⟨?_, hbridge.symm.trans hmoves⟩
  rw [Script.runOn_deliver_succ, hu]
  exact hrun

end Handlers

/-- Deliveries are exact, short of a failure that cannot be reported. The bridge is what it was told
to be. The connections that it has and counts are the open ones, of which a disconnection takes no
other than its own. The observers of a workspace are called in the same way, the bridge of the
workspace being what they have told it to be. -/
theorem Handlers.delivers_exactly {η ω : Type} (c : Handlers η ω) (x : ω) (acts : List (Act η)) :
    let w := c.run (.start x) acts
    w.bridge = .replay w.moves ∧
    (∀ signal arguments, c.Delivers w signal arguments) ∧
    (∀ ms : List (Move η), let b := Bridge.replay ms
      (∀ signal, b.handlerCount signal =
        Set.ncard {link | Move.Open ms link ∧ link.signal = signal}) ∧
      (∀ n, (b.disconnect n).links.Sublist b.links ∧
        ∀ link ∈ b.links, link ∈ (b.disconnect n).links ↔ link.number ≠ n) ∧
      (∀ link ∈ b.links, ∀ link' ∈ b.links, link.number = link'.number → link = link') ∧
      ∀ before after n, ms = before ++ .disconnect n :: after → n < Move.made before →
        b.disconnect n = b) ∧
    ∀ (depth : Nat) (u : Workspace) (ms : List (Move Observer)), u.session.bridge = .replay ms →
      ∀ signal arguments,
        let h : History Observer Workspace := ⟨.replay ms, u, ms, []⟩
        let r := ((ofObservers depth).emit signal arguments).runOn h
        (ofObservers depth).Delivers h signal arguments ∧
          (Script.deliver (depth + 1) signal arguments).runOn u = (r.1, r.2.outside) ∧
          r.2.outside.session.bridge = .replay r.2.moves := by
  intro w
  have hbridge : w.bridge = .replay w.moves := c.bridge_run rfl acts
  refine ⟨hbridge, c.delivers_of_replay hbridge, ?_, ?_⟩
  · intro ms b
    have hb : b.Records ms := Bridge.records_replay ms
    refine ⟨hb.handlerCount_eq, ?_, ?_, ?_⟩
    · intro n
      refine ⟨List.filter_sublist, ?_⟩
      intro link hlink
      rw [Bridge.mem_disconnect_iff, and_iff_right hlink]
    · intro link hlink link' hlink' he
      exact hb.eq_of_number_eq hlink hlink' he
    · intro before after n hms hn
      apply Bridge.disconnect_eq_self
      rintro link hlink rfl
      apply Move.not_open_of_disconnect hn
      rw [← hms]
      exact (hb.mem_links_iff link).mp hlink
  · intro depth u ms hu signal arguments
    exact ⟨(ofObservers depth).delivers_of_replay rfl signal arguments,
      deliver_ofObservers depth hu signal arguments⟩

theorem Handlers.delivers_exactly_with_unruly_handler :
    let c : Handlers Nat Nat := {
      react link _ _ reports :=
        if link.handler = 0 then
          ⟨[.disconnect 0, .disconnect 2, .connect .nodeAdded 3], .error (.refused "no"), reports⟩
        else ⟨[], .ok (), reports⟩
      report _ _ _ reports := (.ok (), reports + 1) }
    let acts : List (Act Nat) := [
      .move (.connect .nodeAdded 0), .move (.connect .nodeRemoved 1),
      .move (.connect .nodeAdded 2), .emit .nodeAdded [], .move (.disconnect 0)]
    let w := c.run (.start 0) acts
    w.calls.map (·.link.number) = [0, 2] ∧ w.outside = 1 ∧ w.bridge.handlerCount .nodeAdded = 1 ∧
      ((c.emit .nodeAdded []).runOn w).2.calls.map (·.link.number) = [0, 2, 3] ∧
      w.bridge = .replay w.moves ∧ w.bridge.disconnect 0 = w.bridge ∧
      let u := (Workspace.start {} ⟨fun _ => .ok "r", 0⟩).toOption.get rfl
      (ofObservers 0).Delivers ⟨.empty, u, [], []⟩ .nodeAdded [] := by
  intro c acts w
  obtain ⟨hbridge, -, hreplay, hobservers⟩ := c.delivers_exactly 0 acts
  obtain ⟨-, -, -, hagain⟩ := hreplay w.moves
  refine ⟨by decide, by decide, by decide, by decide, hbridge, ?_, ?_⟩
  · rw [hbridge]
    exact hagain [.connect .nodeAdded 0, .connect .nodeRemoved 1, .connect .nodeAdded 2]
      [.disconnect 2, .connect .nodeAdded 3, .disconnect 0] 0 rfl (by decide)
  · intro u
    exact (hobservers 0 u [] rfl .nodeAdded []).1

end Bridge

/-- The first of two observers looks for a node under an overlong number, which cannot be reported,
and the second one is not called. -/
theorem Script.deliver_stops_at_overlong :
    let ms : List (Bridge.Move Observer) := [
      .connect .nodeChanged ⟨"first", [.showNode (.value .overlong)], none, none⟩,
      .connect .nodeChanged ⟨"second", [], none, none⟩]
    let u := (Workspace.start {} ⟨fun _ => .ok "r", 0⟩).toOption.get rfl
    let w := { u with session := { u.session with bridge := .replay ms } }
    w.session.bridge.handlerCount .nodeChanged = 2 ∧ ∀ depth, ∃ v : Workspace,
      (Script.deliver (depth + 1) .nodeChanged []).runOn w = (.error (.unwritten .digits), v) ∧
        v.events = [("first", [])] := by
  intro ms u w
  refine ⟨rfl, fun depth => ?_⟩
  let first : Link Observer := ⟨0, .nodeChanged, "first", [.showNode (.value .overlong)], none, none⟩
  let second : Link Observer := ⟨1, .nodeChanged, "second", [], none, none⟩
  let v := { w with events := [("first", [])], calls := w.calls.insert 0 1 }
  have hobservers : w.session.bridge.observers .nodeChanged = [first, second] := rfl
  have hlooks : ∀ i, (call (deliver depth) []
      ⟨0, .nodeChanged, "first", [.showNode (.value (.whole i))], none, none⟩).runOn w =
        (.error (.missingKey (.whole i)), v) := fun _ => rfl
  have hcall : (call (deliver depth) [] first).runOn w = (.error (.missingKey .overlong), v) :=
    hlooks _
  have hreport : (report .nodeChanged [] (.missingKey .overlong)).runOn v =
      (.error (.unwritten .digits), v) := by
    have hnotice : (Notice.handlerFailed .nodeChanged [] (.missingKey .overlong)).obstacle? =
        some .digits := by
      rw [Notice.obstacle?_of_values_eq rfl, Value.obstacle?_overlong]
    simp only [report, Effect.runOn_bind, Effect.runOn_get, List.map_nil, hnotice]
    rfl
  refine ⟨v, ?_, rfl⟩
  rw [runOn_deliver_succ, hobservers, Bridge.runOn_callEach_cons, Effect.runOn_tryCatch, hcall]
  simp only [hreport]

end SceneEditor
