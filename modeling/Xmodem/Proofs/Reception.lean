import Xmodem.Proofs.Acknowledgement

/-!
# What was received was sent

The history of a run is cut into segments: those in which an attempt read a frame from its start to
its checksum, and gaps between them. The payloads of these frames are what the buffer holds
(`Session.Keeps`), and after each segment the latest steps have read the frame in hand as far as its
next field (`Receiver.Chronicle`). So when a transfer ends well, the bytes that the line delivered
have the frames in order, each in one piece, with the end of the transmission as the last byte.
-/

namespace Xmodem

/-- A list with a segment for each of some elements, in order, and gaps between the segments. -/
inductive Scattered {α β : Type} (R : α → List β → Prop) : List α → List β → Prop
  | nil : Scattered R [] []
  | gap {as : List α} {l : List β} (rest : List β) : Scattered R as l → Scattered R as (l ++ rest)
  | segment {as : List α} {l : List β} {a : α} {seg : List β} :
    Scattered R as l → R a seg → Scattered R (as ++ [a]) (l ++ seg)

theorem Scattered.filterMap {α β γ : Type} {R : α → List β → Prop} {R' : α → List γ → Prop}
    (f : β → Option γ) {as : List α} {l : List β} (hR : ∀ a seg, R a seg → R' a (seg.filterMap f))
    (h : Scattered R as l) : Scattered R' as (l.filterMap f) := by
  induction h with
  | nil => exact .nil
  | gap rest _ ih =>
    rw [List.filterMap_append]
    exact ih.gap _
  | segment _ ha ih =>
    rw [List.filterMap_append]
    exact ih.segment (hR _ _ ha)

/-- Frames are numbered from 1 on. -/
def Frame.Numbered (frames : List Frame) : Prop :=
  ∀ k (h : k < frames.length), frames[k].number = UInt8.ofNat (k + 1)

/-- What the frames carry. -/
def Frame.payloads (frames : List Frame) : List UInt8 :=
  frames.flatMap fun f => f.payload.toList

namespace Frame
variable {frames : List Frame} {f : Frame}

theorem Numbered.concat (h : Numbered frames) (hf : f.number = UInt8.ofNat (frames.length + 1)) :
    Numbered (frames ++ [f]) := by
  intro k hk
  by_cases hlt : k < frames.length
  · rw [List.getElem_append_left hlt]
    exact h k hlt
  · have hk' : k < frames.length + 1 := by simpa using hk
    have heq : k = frames.length := by omega
    subst heq
    simpa using hf

theorem length_payloads (frames : List Frame) : (payloads frames).length = blockSize * frames.length := by
  induction frames with
  | nil => rfl
  | cons f frames ih =>
    have hcons : payloads (f :: frames) = f.payload.toList ++ payloads frames := rfl
    rw [hcons, List.length_append, ih, Vector.length_toList, List.length_cons, Nat.mul_succ, Nat.add_comm]

theorem payloads_concat : payloads (frames ++ [f]) = payloads frames ++ f.payload.toList := by
  simp [payloads]

end Frame

namespace Receiver

/-- The bytes that steps took from the line. -/
def taken (steps : List (Receiver × Call)) : List UInt8 :=
  steps.filterMap fun step => step.2.taken?

@[simp] theorem taken_append (steps more : List (Receiver × Call)) :
    taken (steps ++ more) = taken steps ++ taken more :=
  List.filterMap_append

/-- The receiver reads a frame: it neither flushes nor sends. -/
def Reads : Receiver → Prop
  | ⟨_, .reading _ _⟩ => True
  | _ => False

end Receiver

/-- In these steps the receiver read the frame, byte after byte, and committed it with the last one. -/
structure Frame.Accepted (f : Frame) (steps : List (Receiver × Call)) : Prop where
  reads : ∀ step ∈ steps, step.1.Reads
  taken : Receiver.taken steps = f.bytes
  commits : ∃ step, steps.getLast? = some step ∧ Receiver.commits step

namespace Session

/-- The bytes of the frame in hand that come before a field. -/
def heardBefore (s : Session) : Field → List UInt8
  | .start => []
  | .number => [Control.soh]
  | .complement => [Control.soh, s.expected]
  | field => [Control.soh, s.expected, ~~~s.expected] ++ s.contents.drop (s.filled - field.held)

/-- Without the last `count` bytes, the buffer is filled with what frames carried that were accepted in
the steps. -/
structure Keeps (s : Session) (count : Nat) (frames : List Frame) (steps : List (Receiver × Call)) :
    Prop where
  scattered : Scattered Frame.Accepted frames steps
  numbered : Frame.Numbered frames
  contents : (s.takeBack count).contents = Frame.payloads frames

end Session

/-- What the steps so far have to do with the receiver. -/
def Receiver.Chronicle (steps : List (Receiver × Call)) : Receiver → Prop
  | ⟨s, .reading field _⟩ => ∃ frames past latest, steps = past ++ latest ∧
      s.Keeps field.held frames past ∧ (∀ step ∈ latest, step.1.Reads) ∧
      taken latest = s.heardBefore field
  | ⟨_, .sending (.cancel ..)⟩ => True
  | ⟨s, .sending .farewell⟩ => (∃ frames, s.Keeps 0 frames steps) ∧
      (taken steps).getLast? = some Control.eot
  | ⟨s, _⟩ => ∃ frames, s.Keeps 0 frames steps

/-- What a transfer that ended well has brought. -/
structure Receiver.Brings (capacity : Nat) (steps : List (Receiver × Call)) (n : Nat)
    (stored : Array UInt8) (frames : List Frame) : Prop where
  length_eq : n = blockSize * frames.length
  le : n ≤ capacity
  numbered : Frame.Numbered frames
  accepted : Scattered Frame.Accepted frames steps
  last : (taken steps).getLast? = some Control.eot
  contents : (stored.extract 0 n).toList = Frame.payloads frames

/-- A transfer does not end well unless it has brought frames. -/
def Outcome.Earned (capacity : Nat) (steps : List (Receiver × Call)) (o : Outcome) : Prop :=
  ∀ n, o.ending = .received n → ∃ frames, Receiver.Brings capacity steps n o.buffer frames

namespace Session
variable {s : Session} {count : Nat} {frames : List Frame} {steps : List (Receiver × Call)}
variable {capacity size : Nat} {config : Config} {p : Progress Receiver Outcome}

namespace Keeps

theorem gap (h : s.Keeps count frames steps) (rest : List (Receiver × Call)) :
    s.Keeps count frames (steps ++ rest) :=
  ⟨h.scattered.gap rest, h.numbered, h.contents⟩

theorem takeBack (h : s.Keeps count frames steps) : (s.takeBack count).Keeps 0 frames steps :=
  ⟨h.scattered, h.numbered, h.contents⟩

theorem filled_sub (h : s.Keeps count frames steps) (hle : s.filled ≤ s.buffer.size) :
    s.filled - count = blockSize * frames.length := by
  have hlength : (s.takeBack count).contents.length = s.filled - count :=
    (s.takeBack count).length_contents (Nat.le_trans (Nat.sub_le ..) hle)
  rw [← hlength, h.contents, Frame.length_payloads]

theorem store (h : s.Keeps count frames steps) (byte : UInt8) (hle : s.filled ≤ s.buffer.size) :
    (s.store byte).Keeps (count + 1) frames steps := by
  refine ⟨h.scattered, h.numbered, ?_⟩
  rw [contents_takeBack, contents_store s byte hle, filled_store, Nat.add_sub_add_right,
    List.take_append_of_le_length, ← contents_takeBack]
  · exact h.contents
  · rw [s.length_contents hle]
    exact Nat.sub_le ..

end Keeps

/-- The frame in hand, once its payload is complete. -/
def frame (s : Session) (h : (s.contents.drop (s.filled - blockSize)).length = blockSize) : Frame :=
  ⟨s.expected, ⟨(s.contents.drop (s.filled - blockSize)).toArray, by simpa using h⟩⟩

/-- The frame in hand joins those that are kept. -/
theorem Keeps.commit {sum : UInt8} {latest : List (Receiver × Call)}
    (h : s.Keeps blockSize frames steps) (hf : s.Filling blockSize sum) (hle : s.filled ≤ s.buffer.size)
    (hreads : ∀ step ∈ latest, step.1.Reads)
    (hcommits : ∃ step, latest.getLast? = some step ∧ Receiver.commits step)
    (htaken : Receiver.taken latest = s.heardBefore (.checksum sum) ++ [sum]) :
    ∃ f, s.commit.Keeps 0 (frames ++ [f]) (steps ++ latest) := by
  have hlength : (s.contents.drop (s.filled - blockSize)).length = blockSize := by
    rw [List.length_drop, s.length_contents hle, Nat.sub_sub_self hf.le]
  have hnumber : s.expected = UInt8.ofNat (frames.length + 1) := by
    have hexpected : s.expected = UInt8.ofNat ((s.filled - blockSize) / blockSize + 1) := by
      simpa using hf.base.number
    rw [hexpected, h.filled_sub hle, Nat.mul_div_cancel_left _ (by decide)]
  have hpayload : (s.frame hlength).payload.toList = s.contents.drop (s.filled - blockSize) := by
    simp [frame, Vector.toList]
  refine ⟨s.frame hlength, h.scattered.segment ⟨hreads, ?_, hcommits⟩, h.numbered.concat hnumber, ?_⟩
  · rw [htaken, Frame.bytes, hpayload, hf.sum_eq]
    rfl
  · rw [Frame.payloads_concat, ← h.contents, hpayload, s.contents_takeBack, List.take_append_drop]
    rfl

theorem Keeps.brings (h : s.Keeps 0 frames steps) (ha : s.Aligned) (hw : s.Within config capacity size)
    (hcap : capacity ≤ size) (hlast : (Receiver.taken steps).getLast? = some Control.eot) :
    Receiver.Brings capacity steps s.filled s.buffer frames := by
  have hle : s.filled ≤ capacity := hw.capacity_eq ▸ ha.fits
  have hsize : s.filled ≤ s.buffer.size := hw.size_eq ▸ Nat.le_trans hle hcap
  refine ⟨h.filled_sub hsize, hle, h.numbered, h.scattered, hlast, ?_⟩
  rw [Array.toList_extract, List.extract_eq_take_drop, ← h.contents]
  rfl

theorem heardBefore_store (taken : Nat) (sum byte : UInt8) (hle : s.filled ≤ s.buffer.size) :
    (s.store byte).heardBefore (.payload (taken + 1) (sum + byte)) =
      s.heardBefore (.payload taken sum) ++ [byte] := by
  have hdrop : (s.store byte).contents.drop ((s.store byte).filled - (taken + 1)) =
      s.contents.drop (s.filled - taken) ++ [byte] := by
    rw [s.contents_store byte hle, s.filled_store, Nat.add_sub_add_right, List.drop_append_of_le_length]
    rw [s.length_contents hle]
    exact Nat.sub_le ..
  show [Control.soh, s.expected, ~~~s.expected] ++ List.drop _ _ = _
  rw [Field.held, hdrop]
  rfl

theorem Keeps.read {latest : List (Receiver × Call)} (field : Field)
    (h : s.Keeps field.held frames steps) (hreads : ∀ step ∈ latest, step.1.Reads)
    (htaken : Receiver.taken latest = s.heardBefore field) :
    (s.read field).next.Holds (Receiver.Chronicle (steps ++ latest))
      (Outcome.Earned capacity (steps ++ latest)) :=
  ⟨frames, steps, latest, rfl, h, hreads, htaken⟩

theorem Opens.chronicle (h : s.Opens p) (hk : s.Keeps 0 frames steps) :
    p.Holds (Receiver.Chronicle steps) (Outcome.Earned capacity steps) := by
  cases h with
  | opened _ => exact ⟨frames, hk.scattered, hk.numbered, hk.contents⟩
  | abandoned _ => trivial
  | exhausted _ => exact fun _ => nofun

theorem Keeps.acknowledge (h : s.Keeps 0 frames steps) :
    s.acknowledge.next.Holds (Receiver.Chronicle steps) (Outcome.Earned capacity steps) :=
  (opens_openAttempt _).chronicle ⟨h.scattered, h.numbered, h.contents⟩

theorem Hears.chronicle {field : Field} {wait : Wait} {byte : Option UInt8} {call : Call}
    (h : s.Hears field byte p) (htaken : call.taken? = byte) (hcap : capacity ≤ size)
    (hw : s.Within config capacity size) (hf : s.Fits (.reading field wait))
    (hc : Receiver.Chronicle steps ⟨s, .reading field wait⟩) :
    p.Holds (Receiver.Chronicle (steps ++ [(⟨s, .reading field wait⟩, call)]))
      (Outcome.Earned capacity (steps ++ [(⟨s, .reading field wait⟩, call)])) := by
  obtain ⟨frames, past, latest, rfl, hk, hreads, hlatest⟩ := hc
  have hreads' : ∀ step ∈ latest ++ [(⟨s, .reading field wait⟩, call)], step.1.Reads :=
    List.forall_mem_append.2 ⟨hreads, List.forall_mem_singleton.2 trivial⟩
  have htakes : ∀ b, byte = some b →
      Receiver.taken (latest ++ [(⟨s, .reading field wait⟩, call)]) = s.heardBefore field ++ [b] := by
    rintro b rfl
    simp [Receiver.taken, htaken, ← hlatest]
  have hsize := hf.filled_le hw hcap
  rw [List.append_assoc]
  cases h with
  | header => exact hk.read .number hreads' (htakes _ rfl)
  | farewell =>
    refine ⟨⟨frames, hk.gap _⟩, ?_⟩
    rw [Receiver.taken_append, htakes _ rfl, ← List.append_assoc]
    exact List.getLast?_concat
  | repeated => exact ⟨frames, hk.gap _⟩
  | unexpected _ _ => exact ⟨frames, hk.gap _⟩
  | noRoom _ => trivial
  | number _ => exact hk.read .complement hreads' (htakes _ rfl)
  | complement =>
    refine hk.read (.payload 0 0) hreads' ((htakes _ rfl).trans ?_)
    show _ = [Control.soh, s.expected, ~~~s.expected] ++ s.contents.drop s.filled
    rw [s.drop_contents]
    rfl
  | @payload taken sum byte _ =>
    refine (hk.store byte hsize).read (.payload (taken + 1) (sum + byte)) hreads' ?_
    rw [htakes _ rfl, heardBefore_store _ _ _ hsize]
  | @lastPayload taken sum byte hge =>
    have hlast : taken + 1 = blockSize := Nat.le_antisymm hf.1 hge
    have hkeeps : (s.store byte).Keeps blockSize frames past := by
      rw [← hlast]
      exact hk.store byte hsize
    refine hkeeps.read (.checksum (sum + byte)) hreads' ?_
    rw [htakes _ rfl, ← heardBefore_store _ _ byte hsize, hlast]
    rfl
  | @checksum sum =>
    -- Only here do the latest steps become a segment; wherever else they end, they become a gap.
    have hcommits : Receiver.commits (⟨s, .reading (.checksum sum) wait⟩, call) := by
      simp [Receiver.commits, htaken]
    obtain ⟨f, hkeeps⟩ := hk.commit hf hsize hreads' ⟨_, List.getLast?_concat, hcommits⟩ (htakes _ rfl)
    exact hkeeps.acknowledge
  | rejected hr => exact ⟨frames, hk.takeBack.gap _⟩

end Session

namespace Receiver
variable {config : Config} {capacity size : Nat} {r : Receiver} {steps : List (Receiver × Call)}

theorem Chronicle.start (config : Config) (capacity : Nat) (buffer : Array UInt8) :
    Chronicle [] (.start config capacity buffer) :=
  ⟨[], .nil, fun _ _ => by contradiction, by simp [Session.contents, Session.takeBack]; rfl⟩

theorem Chronicle.step {call : Call} {turn : Receiver.Turn} (hc : Chronicle steps r)
    (hi : r.Inv config capacity size) (hcap : capacity ≤ size) (hs : r.Step call turn) :
    turn.next.Holds (Chronicle (steps ++ [(r, call)])) (Outcome.Earned capacity (steps ++ [(r, call)])) := by
  cases hs with
  | @waiting s field wait wait' call h =>
    obtain ⟨frames, past, latest, rfl, hk, hreads, hlatest⟩ := hc
    refine ⟨frames, past, latest ++ [_], List.append_assoc .., hk, ?_, ?_⟩
    · exact List.forall_mem_append.2 ⟨hreads, List.forall_mem_singleton.2 trivial⟩
    · simpa [taken, h.taken?_of_going] using hlatest
  | heard h => exact (Session.hears_heard _ _ _).chronicle h.taken?_of_ended hcap hi.within hi.fits hc
  | unheard _ => trivial
  | @draining s cause drain drain' call said _ =>
    obtain ⟨frames, hk⟩ := hc
    exact ⟨frames, hk.gap _⟩
  | @drained s cause drain call said count _ =>
    obtain ⟨frames, hk⟩ := hc
    cases cause with
    | retry => exact (Session.opens_openAttempt _).chronicle (hk.gap _)
    | repeated => exact (hk.gap _).acknowledge
    | unexpected received => trivial
  | undrained _ => trivial
  | @wrote s what result =>
    have hwrites := s.writes_wrote what result
    generalize (s.wrote what result).next = p at hwrites ⊢
    cases hwrites with
    | opened =>
      obtain ⟨frames, hk⟩ := hc
      exact ⟨frames, _, [], (List.append_nil _).symm, ⟨(hk.gap _).scattered, hk.numbered, hk.contents⟩,
        fun _ hmem => absurd hmem List.not_mem_nil, rfl⟩
    | finished =>
      obtain ⟨⟨frames, hk⟩, hlast⟩ := hc
      rintro n ⟨⟩
      exact ⟨frames, (hk.gap _).brings hi.fits hi.within hcap (by simpa [taken, Call.taken?] using hlast)⟩
    | broken _ e => trivial
    | cancelling cause left => trivial
    | cancelled cause left => exact fun _ => nofun

theorem Run.brings {buffer stored : Array UInt8} {n : Nat}
    (h : Run config capacity buffer steps (.ended ⟨.received n, stored⟩)) :
    ∃ frames, Brings capacity steps n stored frames :=
  h.history (P := Chronicle) (Q := Outcome.Earned capacity) (.start ..)
    (fun _ _ _ _ hi hc hs => hc.step hi h.le hs) n rfl

end Receiver

/-- If a transfer over a line ends well, what the buffer holds came in frames that the line delivered
in order and in one piece each. The frames were accepted, and after them came the end of the
transmission. -/
theorem Line.receive_sound {τ : Type} {line : Line (StateM τ)} {config : Config} {capacity fuel n : Nat}
    {buffer stored : Array UInt8} {calls : List Call} {env env' : τ}
    (h : ((line.recorded.receive config capacity buffer fuel).run []).run env =
      ((.ok (.ended ⟨.received n, stored⟩), calls), env')) :
    ∃ frames : List Frame,
      n = blockSize * frames.length ∧ n ≤ capacity ∧
      (∀ k (hk : k < frames.length), frames[k].number = UInt8.ofNat (k + 1)) ∧
      (calls.filterMap Call.taken?).getLast? = some Control.eot ∧
      Scattered (fun f seg => seg = f.bytes) frames (calls.filterMap Call.taken?) ∧
      (stored.extract 0 n).toList = frames.flatMap (fun f => f.payload.toList) ∧
      ∃ steps, Receiver.Run config capacity buffer steps (.ended ⟨.received n, stored⟩) ∧
        calls = steps.map Prod.snd ∧ Scattered Frame.Accepted frames steps := by
  obtain ⟨steps, hrun, rfl⟩ := Line.run_of_receive h
  obtain ⟨frames, hb⟩ := hrun.brings
  have htaken : (steps.map Prod.snd).filterMap Call.taken? = Receiver.taken steps := List.filterMap_map ..
  rw [htaken]
  refine ⟨frames, hb.length_eq, hb.le, hb.numbered, hb.last, ?_, hb.contents, steps, hrun, rfl, hb.accepted⟩
  exact hb.accepted.filterMap _ fun f seg ha => ha.taken

/-- One frame after a silence, then the end of the transmission. -/
theorem Line.receive_sound_single : ∃ (env : Bench.ScriptedLine) (calls : List Call)
    (env' : Bench.ScriptedLine) (stored : Array UInt8),
    ((Bench.ScriptedLine.line.recorded.receive {} 128 (Array.replicate 130 0) 300).run []).run env =
      ((.ok (.ended ⟨.received 128, stored⟩), calls), env') ∧
    ∃ f : Frame, f.number = 1 ∧ (stored.extract 0 128).toList = f.payload.toList ∧
      Scattered (fun f seg => seg = f.bytes) [f] (calls.filterMap Call.taken?) := by
  let env : Bench.ScriptedLine :=
    { script := [.silence, .bytes ⟨#[1, 1, 254], 1, 0⟩, .bytes ⟨#[7], 128, 0⟩, .bytes ⟨#[128, 4], 1, 0⟩] }
  have hstands : ((Bench.ScriptedLine.line.standing {} 128 (Array.replicate 130 0) 300 env).result?.map
      fun o => o.ending) = some (.received 128) := by
    decide +kernel
  obtain ⟨⟨ending, stored⟩, ho, hending⟩ := Option.map_eq_some_iff.1 hstands
  obtain rfl : ending = .received 128 := hending
  obtain ⟨calls, env', hrun⟩ := Line.receive_of_standing (by decide) (by simp) (Progress.eq_ended ho)
  obtain ⟨frames, hlength, -, hnumbers, -, hbytes, hstored, -⟩ := Line.receive_sound hrun
  have hone : frames.length = 1 := Nat.eq_of_mul_eq_mul_left (by decide) hlength.symm
  obtain ⟨f, rfl⟩ := List.length_eq_one_iff.1 hone
  exact ⟨env, calls, env', stored, hrun, f, hnumbers 0 Nat.zero_lt_one, by simpa using hstored, hbytes⟩

end Xmodem
