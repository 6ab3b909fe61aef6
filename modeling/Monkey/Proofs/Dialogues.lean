import Monkey.Proofs.PrintedLines
import Monkey.Repl.Transcript

namespace Monkey

namespace Sink

/-- There is room for the text. -/
def Fits (s : Sink) (text : String) : Prop := ∀ limit ∈ s.limit, text.utf8ByteSize ≤ limit - s.bytes.size

/-- The stream with the text behind what it holds. -/
def append (s : Sink) (text : String) : Sink := { s with bytes := s.bytes ++ text.toUTF8 }

/-- The stream with as much of the text as there is room for. -/
def fill (s : Sink) (text : String) : Sink :=
  match s.limit with
  | none => s.append text
  | some limit => { s with bytes := s.bytes ++ text.toUTF8.extract 0 (limit - s.bytes.size) }

theorem write_of_fits {s : Sink} {text : String} (h : s.Fits text) : s.write text = (.ok (), s.append text) := by
  unfold write append
  dsimp only
  split
  · rfl
  · next limit eq =>
    have room : text.toUTF8.size ≤ limit - s.bytes.size := h limit eq
    rw [if_pos room]

theorem write_of_not_fits {s : Sink} {text : String} (h : ¬ s.Fits text) :
    s.write text = (.error .full, s.fill text) := by
  unfold write fill
  dsimp only
  split
  · next eq => exact absurd (fun limit mem => by simp [eq] at mem) h
  · next limit eq =>
    have beyond : ¬ text.toUTF8.size ≤ limit - s.bytes.size := by
      intro room
      refine h fun limit' mem => ?_
      rw [eq] at mem
      cases mem
      exact room
    rw [if_neg beyond, eq]

theorem append_append (s : Sink) (a b : String) : (s.append a).append b = s.append (a ++ b) := by
  simp [append, String.toByteArray_append, ByteArray.append_assoc]

theorem fits_empty (s : Sink) : s.Fits "" := fun _ _ => Nat.zero_le _

theorem append_empty (s : Sink) : s.append "" = s := by
  simp [append]

/-- Two texts have room one after the other if they have room together. -/
theorem fits_append_iff {s : Sink} {a b : String} : s.Fits (a ++ b) ↔ s.Fits a ∧ (s.append a).Fits b := by
  have size : (s.append a).bytes.size = s.bytes.size + a.utf8ByteSize := by
    rw [append, ByteArray.size_append]
    rfl
  have limit : (s.append a).limit = s.limit := rfl
  simp only [Fits, size, limit, String.utf8ByteSize_append]
  constructor
  · intro room
    refine ⟨fun limit mem => ?_, fun limit mem => ?_⟩
    all_goals
      have := room limit mem
      omega
  · rintro ⟨first, second⟩ limit mem
    have := first limit mem
    have := second limit mem
    omega

end Sink

namespace Repl

namespace State

def sink (s : State) : Channel → Sink
  | .out => s.out
  | .err => s.err

def withSink (s : State) (k : Sink) : Channel → State
  | .out => { s with out := k }
  | .err => { s with err := k }

/-- The state after the write, if there is room for it. -/
def put (s : State) (w : Write) : State := s.withSink ((s.sink w.channel).append w.text) w.channel

/-- The state after the write, if there is no room for all of it. -/
def cut (s : State) (w : Write) : State := s.withSink ((s.sink w.channel).fill w.text) w.channel

theorem session_withSink (s : State) (k : Sink) (c : Channel) : (s.withSink k c).session = s.session := by
  cases c <;> rfl

theorem sink_withSink (s : State) (k : Sink) (c d : Channel) :
    (s.withSink k c).sink d = if c = d then k else s.sink d := by
  cases c <;> cases d <;> rfl

end State

def write (w : Write) : Dialogue Unit :=
  match w.channel with
  | .out => writeOut w.text
  | .err => writeErr w.text

section Runs

variable {α β : Type} {s : State}

/-- A dialogue goes on after a value and nowhere else. -/
theorem run_bind (m : Dialogue α) (f : α → Dialogue β) :
    (m >>= f).run s =
      match m.run s with
      | (.ok a, s') => (f a).run s'
      | (.error e, s') => (.error e, s') := by
  have step : (m >>= f).run s =
      (fun p : Except Stop α × State => (ExceptT.bindCont f p.1 : StateM State (Except Stop β)) p.2) (m.run s) := rfl
  rw [step]
  split
  · next a s' eq => rw [eq]; rfl
  · next e s' eq => rw [eq]; rfl

theorem run_modifyGet (f : State → α × State) : (modifyGet f : Dialogue α).run s = (.ok (f s).1, (f s).2) := rfl

theorem run_write (w : Write) :
    (write w).run s =
      match (s.sink w.channel).write w.text with
      | (.ok (), k) => (.ok (), s.withSink k w.channel)
      | (.error e, k) => (.error (.stream e), s.withSink k w.channel) := by
  obtain ⟨channel, text⟩ := w
  cases channel with
  | out =>
    have step : (write ⟨.out, text⟩).run s =
        (ofWritten (s.out.write text).1).run { s with out := (s.out.write text).2 } := rfl
    rw [step]
    change _ = match s.out.write text with | (.ok (), k) => _ | (.error e, k) => _
    split
    · next k eq => rw [eq]; rfl
    · next e k eq => rw [eq]; rfl
  | err =>
    have step : (write ⟨.err, text⟩).run s =
        (ofWritten (s.err.write text).1).run { s with err := (s.err.write text).2 } := rfl
    rw [step]
    change _ = match s.err.write text with | (.ok (), k) => _ | (.error e, k) => _
    split
    · next k eq => rw [eq]; rfl
    · next e k eq => rw [eq]; rfl

theorem run_write_of_fits {w : Write} (h : (s.sink w.channel).Fits w.text) :
    (write w).run s = (.ok (), s.put w) := by
  rw [run_write, Sink.write_of_fits h]
  rfl

theorem run_write_of_not_fits {w : Write} (h : ¬ (s.sink w.channel).Fits w.text) :
    (write w).run s = (.error (.stream .full), s.cut w) := by
  rw [run_write, Sink.write_of_not_fits h]
  rfl

end Runs

/-- What the dialogue writes for a reply, and the prompt after it. -/
def Reply.writes (r : Reply) : List Write :=
  r.errors.map (⟨.err, · ++ "\n"⟩) ++ r.values.map (⟨.out, · ++ "\n"⟩) ++ [⟨.out, prompt⟩]

theorem respond_cons (line : String) (rest : List Line) :
    respond (some line :: rest) = reply line >>= fun r => r.writes.forM write >>= fun _ => respond rest := by
  simp [respond, Reply.writes, write]

theorem run_reply {s : State} {line : String} {r : Reply} {session : Session}
    (h : answer? s.session line = (some r, session)) : (reply line).run s = (.ok r, { s with session }) := by
  -- Evaluation must not be unfolded.
  unfold reply
  generalize answer? = f at h ⊢
  rw [run_bind, run_modifyGet]
  simp only [h]
  rfl

theorem run_reply_unfinished {s : State} {line : String} {session : Session}
    (h : answer? s.session line = (none, session)) : (reply line).run s = (.error .unfinished, { s with session }) := by
  unfold reply
  generalize answer? = f at h ⊢
  rw [run_bind, run_modifyGet]
  simp only [h]
  rfl

/-- How a dialogue that starts with these streams ends when `t` is all that it has to write: after all of it, or in
the middle of the first write that there is no room for. -/
inductive Plays (start : Channel → Sink) (t : Transcript) : Except Stop Unit → State → Prop
  | whole {s : State} :
      (∀ c, (start c).Fits (t.text c)) → (∀ c, s.sink c = (start c).append (t.text c)) →
        s.session = t.session → Plays start t t.outcome s
  | cut {s : State} {before after : List Write} {w : Write} :
      t.writes = before ++ w :: after → (∀ c, (start c).Fits (textOn c before)) →
        ¬ ((start w.channel).append (textOn w.channel before)).Fits w.text →
          (∀ c, s.sink c = if w.channel = c then ((start c).append (textOn c before)).fill w.text
            else (start c).append (textOn c before)) →
            s.session.state.printer.Continues t.session.state.printer → Plays start t (.error (.stream .full)) s

/-- The dialogue `m`, started in `s`, plays the transcript. -/
def PlaysFrom (s : State) (t : Transcript) (m : Dialogue Unit) : Prop := Plays s.sink t (m.run s).1 (m.run s).2

section Plays

variable {s : State} {t : Transcript}

/-- When nothing is to be written the streams stay as they are. -/
theorem plays_nothing {s' : State} {stop : Option Stop} {session : Session} (same : s'.session = session)
    (out : s'.out = s.out) (err : s'.err = s.err) :
    Plays s.sink { session, stop } (Transcript.outcome { session, stop }) s' := by
  refine .whole (t := { session, stop }) (fun c => Sink.fits_empty _) (fun c => ?_) same
  have empty : ({ session, stop } : Transcript).text c = "" := rfl
  rw [empty, Sink.append_empty]
  cases c
  · exact out
  · exact err

/-- A write that there is room for comes before all others. -/
theorem Plays.after_put {w : Write} {r : Except Stop Unit} {s' : State} (room : (s.sink w.channel).Fits w.text)
    (h : Plays (s.put w).sink t r s') : Plays s.sink (t.after [w]) r s' := by
  have sink (c : Channel) (ws : List Write) :
      ((s.put w).sink c).append (textOn c ws) = (s.sink c).append (textOn c (w :: ws)) := by
    simp only [State.put, State.sink_withSink, textOn]
    split
    · next same => rw [← same, Sink.append_append]
    · rfl
  have fits (c : Channel) (ws : List Write) (h : ((s.put w).sink c).Fits (textOn c ws)) :
      (s.sink c).Fits (textOn c (w :: ws)) := by
    simp only [State.put, State.sink_withSink] at h
    simp only [textOn]
    split
    · next same =>
      rw [if_pos same] at h
      subst same
      exact Sink.fits_append_iff.2 ⟨room, h⟩
    · next other => rwa [if_neg other] at h
  cases h with
  | whole all sinks session =>
    refine .whole (t := t.after [w]) (fun c => fits c _ (all c)) (fun c => ?_) session
    rw [sinks c]
    exact sink c t.writes
  | @cut _ before after v writes all beyond sinks printed =>
    have writes' : (t.after [w]).writes = (w :: before) ++ v :: after := congrArg (w :: ·) writes
    refine .cut writes' (fun c => fits c _ (all c)) ?_ (fun c => ?_) printed
    · rwa [sink] at beyond
    · rw [sinks c, sink]

theorem playsFrom_writes {ws : List Write} {next : Dialogue Unit}
    (printed : s.session.state.printer.Continues t.session.state.printer)
    (h : ∀ s', s'.session = s.session → PlaysFrom s' t next) :
    PlaysFrom s (t.after ws) (ws.forM write >>= fun _ => next) := by
  induction ws generalizing s with
  | nil => exact h s rfl
  | cons w ws ih =>
    have first : ((w :: ws).forM write >>= fun _ => next) = write w >>= fun _ => ws.forM write >>= fun _ => next := by
      simp
    unfold PlaysFrom
    rw [first, run_bind]
    by_cases room : (s.sink w.channel).Fits w.text
    · rw [run_write_of_fits room]
      have session : (s.put w).session = s.session := State.session_withSink ..
      have rest : PlaysFrom (s.put w) (t.after ws) (ws.forM write >>= fun _ => next) := by
        refine ih (by rw [session]; exact printed) fun s' same => h s' (same.trans session)
      exact rest.after_put room
    · rw [run_write_of_not_fits room]
      have session : (s.cut w).session = s.session := State.session_withSink ..
      have writes : (t.after (w :: ws)).writes = [] ++ w :: (ws ++ t.writes) := rfl
      refine .cut writes (fun c => Sink.fits_empty _) ?_ (fun c => ?_) ?_
      · simpa only [textOn, Sink.append_empty] using room
      · simp only [State.cut, State.sink_withSink, textOn, Sink.append_empty]
        split
        · next same => rw [same]
        · rfl
      · rw [session]
        exact printed

end Plays

section Answers

variable {s : Session} {line : String}

/-- The transcript goes on behind a line with what the reply to it makes the dialogue write. -/
theorem ofLines_of_reply {r : Reply} {s' : Session} (rest : List Line) (h : answer? s line = (some r, s')) :
    Transcript.ofLines s (some line :: rest) = (Transcript.ofLines s' rest).after r.writes := by
  unfold answer? at h
  rw [Transcript.ofLines]
  -- Evaluation must not be unfolded.
  generalize s.evalSource line = evaluated at h ⊢
  obtain ⟨outcome, after⟩ := evaluated
  cases outcome with
  | parseErrors errors =>
    cases h
    simp [Reply.writes, prompt, Function.comp_def]
  | value v =>
    cases h
    rfl
  | noValue =>
    cases h
    rfl
  | unfinished => cases h

/-- The transcript ends at a line that gets no reply. -/
theorem ofLines_of_unfinished {s' : Session} (rest : List Line) (h : answer? s line = (none, s')) :
    Transcript.ofLines s (some line :: rest) = { session := s', stop := some .unfinished } := by
  unfold answer? at h
  rw [Transcript.ofLines]
  generalize s.evalSource line = evaluated at h ⊢
  obtain ⟨outcome, after⟩ := evaluated
  cases outcome with
  | unfinished =>
    cases h
    rfl
  | parseErrors errors => cases h
  | value v => cases h
  | noValue => cases h

end Answers

/-- The lines to come only add to what is printed. -/
theorem continues_ofLines (s : Session) (lines : List Line) :
    s.state.printer.Continues (Transcript.ofLines s lines).session.state.printer := by
  induction lines generalizing s with
  | nil =>
    rw [Transcript.ofLines]
    exact .refl s.state.printer
  | cons line rest ih =>
    cases line with
    | none =>
      rw [Transcript.ofLines]
      exact .refl s.state.printer
    | some line =>
      have first := s.continues_evalSource line
      rw [Transcript.ofLines]
      generalize s.evalSource line = evaluated at first ⊢
      match evaluated with
      | (.parseErrors _, s') => exact first.trans (ih s')
      | (.value _, s') => exact first.trans (ih s')
      | (.noValue, s') => exact first.trans (ih s')
      | (.unfinished, s') => exact first

/-- After a prompt the dialogue plays what the lines to come make it write. -/
theorem playsFrom_respond (lines : List Line) (s : State) :
    PlaysFrom s (Transcript.ofLines s.session lines) (respond lines) := by
  induction lines generalizing s with
  | nil =>
    have last : respond [] = [⟨.out, "\n"⟩].forM write >>= fun _ => pure () := by simp [respond, write]
    have rest : Transcript.ofLines s.session [] = Transcript.after [⟨.out, "\n"⟩] { session := s.session } := by
      rw [Transcript.ofLines, Transcript.after, List.append_nil]
    rw [last, rest]
    refine playsFrom_writes (s := s) (t := { session := s.session }) (.refl s.session.state.printer) ?_
    exact fun s' same => plays_nothing same rfl rfl
  | cons line rest ih =>
    cases line with
    | none =>
      have ends : (respond (none :: rest)).run s = (.error (.stream .notText), s) := rfl
      rw [PlaysFrom, ends, Transcript.ofLines]
      exact plays_nothing rfl rfl rfl
    | some line =>
      rw [respond_cons]
      unfold PlaysFrom
      rw [run_bind]
      cases answer : answer? s.session line with
      | mk r session =>
        cases r with
        | none =>
          rw [run_reply_unfinished answer, ofLines_of_unfinished rest answer]
          exact plays_nothing rfl rfl rfl
        | some r =>
          have printed := continues_ofLines session rest
          have later (s' : State) (same : s'.session = session) :
              PlaysFrom s' (Transcript.ofLines session rest) (respond rest) := by
            subst same
            exact ih s'
          have plays : PlaysFrom { s with session } _ (r.writes.forM write >>= fun _ => respond rest) :=
            playsFrom_writes printed later
          have sinks : ({ s with session } : State).sink = s.sink := by
            funext c
            cases c <;> rfl
          unfold PlaysFrom at plays
          rw [sinks] at plays
          rw [run_reply answer, ofLines_of_reply rest answer]
          exact plays

theorem endLine_eq (reversed : List UInt8) : endLine reversed = withoutReturn reversed.reverse := by
  unfold endLine withoutReturn
  rw [List.getLast?_reverse, List.dropLast_reverse]
  split
  · simp
  · next other =>
    split
    · next first =>
      obtain ⟨rest, rfl⟩ := List.head?_eq_some_iff.1 first
      exact absurd rfl (other rest)
    · rfl

theorem linesOfPieces_cons {piece : List UInt8} {pieces : List (List UInt8)} (more : pieces ≠ []) :
    linesOfPieces (piece :: pieces) = decode (withoutReturn piece) :: linesOfPieces pieces := by
  rw [linesOfPieces]
  · rfl
  · exact more

/-- The lines are cut where the line feeds are. -/
theorem linesOf_eq (input : ByteArray) : linesOf input = inputLines input := by
  -- The bytes since the last line feed are the beginning of the next piece.
  have cut (bytes reversed : List UInt8) (lines : Array Line) :
      cutLines lines reversed bytes = lines.toList ++ linesOfPieces (bytes.splitOnPPrepend (· == 10) reversed) := by
    induction bytes generalizing reversed lines with
    | nil =>
      rw [cutLines, List.splitOnPPrepend_nil, linesOfPieces]
      cases reversed <;> simp [decode]
    | cons b bytes ih =>
      by_cases feed : b = 10
      · subst feed
        have more : bytes.splitOnP (· == 10) ≠ [] := List.splitOnP_ne_nil _ _
        rw [cutLines, ih, endLine_eq, List.splitOnPPrepend_cons_pos rfl, List.splitOnPPrepend_nil_right,
          linesOfPieces_cons more]
        simp
      · have other : (b == 10) = false := beq_false_of_ne feed
        rw [List.splitOnPPrepend_cons_neg (p := (· == 10)) other, cutLines, ih]
        exact feed
  exact (cut _ _ _).trans (List.nil_append _)

theorem playsFrom_run (input : ByteArray) (s : State) :
    PlaysFrom s (transcript input s.session) (dialogue input) := by
  have first : dialogue input = [⟨.out, prompt⟩].forM write >>= fun _ => respond (inputLines input) := by
    rw [dialogue, linesOf_eq]
    simp [write]
  rw [first]
  refine playsFrom_writes (s := s) (t := .ofLines s.session (inputLines input)) (continues_ofLines _ _) ?_
  intro s' same
  rw [← same]
  exact playsFrom_respond _ s'

/-- The ideal dialogue is never short of room. -/
theorem outcome_ofLines_ne (s : Session) (lines : List Line) :
    (Transcript.ofLines s lines).outcome ≠ .error (.stream .full) := by
  induction lines generalizing s with
  | nil =>
    rw [Transcript.ofLines]
    exact nofun
  | cons line rest ih =>
    cases line with
    | none =>
      rw [Transcript.ofLines]
      exact nofun
    | some line =>
      rw [Transcript.ofLines]
      generalize s.evalSource line = evaluated
      match evaluated with
      | (.parseErrors _, s') => exact ih s'
      | (.value _, s') => exact ih s'
      | (.noValue, s') => exact ih s'
      | (.unfinished, s') => exact nofun

theorem textOn_append (c : Channel) (ws ws' : List Write) : textOn c (ws ++ ws') = textOn c ws ++ textOn c ws' := by
  induction ws with
  | nil => simp [textOn]
  | cons w ws ih =>
    simp only [List.cons_append, textOn, ih]
    split
    · rw [String.append_assoc]
    · rfl

/-- The text is too long for a stream with this limit. -/
def Exceeds (text : String) (limit : Option Nat) : Prop := ∃ n ∈ limit, n < text.utf8ByteSize

/-- The state in which a dialogue begins, with the limits of its streams. -/
def State.start (s : Session) (limit : Channel → Option Nat) : State :=
  { session := s, out := { limit := limit .out }, err := { limit := limit .err } }

theorem State.sink_start (s : Session) (limit : Channel → Option Nat) (c : Channel) :
    (start s limit).sink c = { limit := limit c } := by
  cases c <;> rfl

theorem fits_iff {text : String} {limit : Option Nat} :
    ({ limit } : Sink).Fits text ↔ ¬ Exceeds text limit := by
  simp [Sink.Fits, Exceeds]

theorem bytes_append (text : String) (limit : Option Nat) :
    (({ limit } : Sink).append text).bytes = text.toUTF8 := by
  simp [Sink.append]

/-- A stream that has no room for a text is full in the end, and holds the beginning of the text. -/
theorem exists_fill {k : Sink} {text : String} (beyond : ¬ k.Fits text) (within : ∀ n ∈ k.limit, k.bytes.size ≤ n) :
    k.limit = some (k.fill text).bytes.size ∧
      ∃ rest, k.bytes ++ text.toUTF8 = (k.fill text).bytes ++ rest := by
  obtain ⟨limit, bytes⟩ := k
  cases limit with
  | none => exact absurd (fun n mem => nomatch mem) beyond
  | some n =>
    have le : bytes.size ≤ n := within n rfl
    have small : n - bytes.size < text.toUTF8.size := by
      refine Nat.lt_of_not_le fun room => beyond fun m mem => ?_
      cases mem
      exact room
    refine ⟨congrArg some ?_, text.toUTF8.extract (n - bytes.size) text.toUTF8.size, ?_⟩
    · simp only [Sink.fill, ByteArray.size_append, ByteArray.size_extract]
      omega
    · simp only [Sink.fill, ByteArray.append_assoc]
      rw [← ByteArray.extract_eq_extract_append_extract _ (Nat.zero_le _) (Nat.le_of_lt small),
        ByteArray.extract_zero_size]

/-- How a dialogue with these limits of its streams has ended, in relation to its transcript. -/
structure CutsTranscript (limit : Channel → Option Nat) (t : Transcript) (r : Except Stop Unit) (left : State) :
    Prop where
  written : ∀ c, ∃ rest, (t.text c).toUTF8 = (left.sink c).bytes ++ rest
  printed : left.session.state.printer.Continues t.session.state.printer
  full_iff : r = .error (.stream .full) ↔ ∃ c, Exceeds (t.text c) (limit c)
  /-- The first write that does not fit fills its stream; to the other goes what was written before. -/
  failed : r = .error (.stream .full) → ∃ before w after, t.writes = before ++ w :: after ∧
    (∀ c, ¬ Exceeds (textOn c before) (limit c)) ∧ Exceeds (textOn w.channel before ++ w.text) (limit w.channel) ∧
      limit w.channel = some (left.sink w.channel).bytes.size ∧
      ∀ c, c ≠ w.channel → (left.sink c).bytes = (textOn c before).toUTF8
  whole : r ≠ .error (.stream .full) →
    r = t.outcome ∧ (∀ c, (left.sink c).bytes = (t.text c).toUTF8) ∧ left.session = t.session

/-- A dialogue is its transcript up to the first write that there is no room for. -/
theorem run_cuts_transcript (input : ByteArray) (s : Session) (limit : Channel → Option Nat) :
    CutsTranscript limit (transcript input s) (run input (.start s limit)).1 (run input (.start s limit)).2 := by
  have plays : Plays (State.start s limit).sink (transcript input s) (run input (.start s limit)).1
      (run input (.start s limit)).2 := playsFrom_run input (.start s limit)
  have ideal : (transcript input s).outcome ≠ .error (.stream .full) := outcome_ofLines_ne s (inputLines input)
  have start : (State.start s limit).sink = fun c => { limit := limit c } := funext (State.sink_start s limit)
  rw [start] at plays
  generalize transcript input s = t at plays ideal ⊢
  generalize (run input (.start s limit)).1 = r, (run input (.start s limit)).2 = left at plays ⊢
  cases plays with
  | whole all sinks session =>
    have fits (c : Channel) : ¬ Exceeds (t.text c) (limit c) := fits_iff.1 (all c)
    have bytes (c : Channel) : (left.sink c).bytes = (t.text c).toUTF8 := by rw [sinks c, bytes_append]
    have printed : left.session.state.printer.Continues t.session.state.printer := session ▸ .refl _
    have full_iff : t.outcome = .error (.stream .full) ↔ ∃ c, Exceeds (t.text c) (limit c) :=
      ⟨fun full => absurd full ideal, fun ⟨c, beyond⟩ => absurd beyond (fits c)⟩
    refine ⟨fun c => ⟨.empty, ?_⟩, printed, full_iff, fun full => absurd full ideal, fun _ => ⟨rfl, bytes, session⟩⟩
    rw [bytes c, ByteArray.append_empty]
  | @cut _ before after w writes all beyond sinks printed =>
    have fits (c : Channel) : ¬ Exceeds (textOn c before) (limit c) := fits_iff.1 (all c)
    -- What goes to the stream that is cut, and what to the other.
    have cutText : t.text w.channel = textOn w.channel before ++ w.text ++ textOn w.channel after := by
      rw [Transcript.text, writes, textOn_append, textOn, if_pos rfl, String.append_assoc]
    have text (c : Channel) : t.text c = textOn c before ++ textOn c (w :: after) := by
      rw [Transcript.text, writes, textOn_append]
    have exceeds : Exceeds (textOn w.channel before ++ w.text) (limit w.channel) := by
      refine Classical.byContradiction fun room => ?_
      exact beyond (Sink.fits_append_iff.1 (fits_iff.2 room)).2
    have whole : Exceeds (t.text w.channel) (limit w.channel) := by
      obtain ⟨n, mem, lt⟩ := exceeds
      refine ⟨n, mem, ?_⟩
      rw [cutText, String.utf8ByteSize_append]
      omega
    have within : ∀ n ∈ limit w.channel, (textOn w.channel before).toUTF8.size ≤ n := by
      intro n mem
      exact Nat.le_of_not_lt fun lt => fits w.channel ⟨n, mem, lt⟩
    obtain ⟨full, rest, same⟩ := exists_fill beyond (by rw [bytes_append]; exact within)
    have cutSink := sinks w.channel
    rw [if_pos rfl] at cutSink
    rw [← cutSink, bytes_append] at same
    rw [← cutSink] at full
    have others (c : Channel) (other : c ≠ w.channel) : (left.sink c).bytes = (textOn c before).toUTF8 := by
      rw [sinks c, if_neg other.symm, bytes_append]
    refine ⟨fun c => ?_, printed, ⟨fun _ => ⟨w.channel, whole⟩, fun _ => rfl⟩,
      fun _ => ⟨before, w, after, writes, fits, exceeds, full, others⟩, fun kept => absurd rfl kept⟩
    by_cases there : c = w.channel
    · subst there
      refine ⟨rest ++ (textOn w.channel after).toUTF8, ?_⟩
      rw [← ByteArray.append_assoc, ← same, cutText]
      simp
    · refine ⟨(textOn c (w :: after)).toUTF8, ?_⟩
      rw [others c there, text c]
      simp

end Repl

end Monkey
