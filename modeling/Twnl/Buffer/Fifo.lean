import Mathlib.Data.Option.Basic
import Twnl.Buffer.Spec
import Twnl.Machine.Run

/-!
# The buffer as a queue

A buffer stands for the bytes put in and not yet taken out. `Tracked` carries along what was put
in and how much was taken out, so that this reads `readable = appended.drop retrieved`, and a step
of the tracked machine is one call on the buffer.

## Where it holds

The refinement holds along a run exactly when every request of the run is servable in the state it
is made in (`sound_iff_served`). The requests that are not come from one slip: `makeSpace` decides
between growing and compacting by the readable bytes, which compacting does not free, instead of by
the bytes in front of the reader, which it does.
-/

namespace Twnl

namespace Buffer

open Machine

/-- The calls made on a buffer. -/
inductive Op
  | append (data : List Byte)
  /-- `ensureWriteBytes(len)`, then `data` written at `beginWrite()` and counted by
  `hasWritten`. -/
  | ensureWriteBytes (len : ℕ) (data : List Byte)
  | retrieve (len : ℕ)
  | retrieveUntil (stop : ℕ)
  | retrieveAll
  | retrieveAsString (len : ℕ)

/-- One call. -/
def call (b : Buffer) : Op → Except Fault Buffer
  | .append data => b.append data
  | .ensureWriteBytes len data => do
    let roomy ← b.ensureWriteBytes len
    let filled ← roomy.copyIn data
    filled.hasWritten data.length
  | .retrieve len => b.retrieve len
  | .retrieveUntil stop => b.retrieveUntil stop
  | .retrieveAll => .ok b.retrieveAll
  | .retrieveAsString len => do
    let (_, rest) ← b.retrieveAsString len
    .ok rest

namespace Op

/-- The room a call asks for. -/
def request : Op → Option ℕ
  | append data => some data.length
  | ensureWriteBytes len _ => some len
  | retrieve _ | retrieveUntil _ | retrieveAll | retrieveAsString _ => none

/-- The bytes a call puts in. -/
def put : Op → List Byte
  | append data | ensureWriteBytes _ data => data
  | retrieve _ | retrieveUntil _ | retrieveAll | retrieveAsString _ => []

/-- The number of bytes a call takes out. -/
def removed (b : Buffer) : Op → ℕ
  | append _ | ensureWriteBytes _ _ => 0
  | retrieve len | retrieveAsString len => len
  | retrieveUntil stop => stop - b.readerIndex
  | retrieveAll => b.readableBytes

/-- What a caller keeps to: lengths are of type `size_t`, no more is written than was ensured, and
no more is taken out than is readable. -/
def Legal (b : Buffer) : Op → Prop
  | append data => data.length < sizeModulus
  | ensureWriteBytes len data => len < sizeModulus ∧ data.length ≤ len
  | retrieve len | retrieveAsString len => len ≤ b.readableBytes
  | retrieveUntil stop => b.readerIndex ≤ stop ∧ stop ≤ b.writerIndex
  | retrieveAll => True

instance (b : Buffer) : DecidablePred (Legal b)
  | append _ | retrieve _ | retrieveAsString _ => Nat.decLe _ _
  | ensureWriteBytes _ _ | retrieveUntil _ => inferInstanceAs (Decidable (_ ∧ _))
  | retrieveAll => .isTrue trivial

end Op

/-- A buffer with its history. -/
structure Tracked where
  buffer : Buffer
  appended : List Byte
  retrieved : ℕ

/-- One call, recorded. -/
def track (t : Tracked) (op : Op) : Except Fault Tracked := do
  let b ← t.buffer.call op
  .ok ⟨b, t.appended ++ op.put, t.retrieved + op.removed t.buffer⟩

/-- The indices are in order, and the readable bytes are those appended less those retrieved. -/
structure Faithful (t : Tracked) : Prop where
  ordered : t.buffer.Ordered
  retrieved_le : t.retrieved ≤ t.appended.length
  readable_eq : t.buffer.readable = t.appended.drop t.retrieved

instance : DecidablePred Faithful := fun t ↦
  decidable_of_iff (t.buffer.Ordered ∧ t.retrieved ≤ t.appended.length ∧
      t.buffer.readable = t.appended.drop t.retrieved)
    ⟨fun h ↦ ⟨h.1, h.2.1, h.2.2⟩, fun h ↦ ⟨h.ordered, h.retrieved_le, h.readable_eq⟩⟩

/-- `ensureWriteBytes(len)` ends with room for `len`, unless the vector refuses to grow. -/
def Granted (b : Buffer) (len : ℕ) : Prop :=
  Outcome (b.ensureWriteBytes len) (fun roomy ↦ roomy.Ordered ∧ len ≤ roomy.writableBytes)
    (· = .lengthError)

instance (b : Buffer) (len : ℕ) : Decidable (Granted b len) := Outcome.decidable _ _ _

/-- A call gets the room it asks for and leaves the buffer faithful. -/
def Sound (t : Tracked) (op : Op) : Prop :=
  (∀ len ∈ op.request, Granted t.buffer len) ∧ Outcome (track t op) Faithful (· = .lengthError)

instance (t : Tracked) : DecidablePred (Sound t) := fun _ ↦ inferInstanceAs (Decidable (_ ∧ _))

/-- The request of a call, if it makes one, is servable in the state the call is made in. -/
def Served (t : Tracked) (op : Op) : Prop := ∀ len ∈ op.request, t.buffer.Servable len

instance (t : Tracked) : DecidablePred (Served t) :=
  fun op ↦ inferInstanceAs (Decidable (∀ len ∈ op.request, t.buffer.Servable len))

/-- The invariant of a run whose requests are servable. -/
structure TrackedWF (t : Tracked) : Prop extends Faithful t where
  size_le : t.buffer.size ≤ maxSize

variable {t : Tracked} {op : Op} {b : Buffer}

theorem TrackedWF.wf (h : TrackedWF t) : t.buffer.WF := ⟨h.ordered, h.size_le⟩

theorem TrackedWF.readableBytes_eq (h : TrackedWF t) :
    t.buffer.readableBytes = t.appended.length - t.retrieved := by
  rw [← h.wf.length_readable, h.readable_eq, List.length_drop]

/-! ## One call -/

/-- A legal call with a servable request does to the readable bytes what the queue does. -/
theorem call_spec (h : b.WF) (hlegal : op.Legal b) (hserved : ∀ len ∈ op.request, b.Servable len) :
    (∃ b', b.call op = .ok b' ∧ b'.WF ∧
      b'.readable = (b.readable ++ op.put).drop (op.removed b)) ∨
      b.call op = .error .lengthError := by
  cases op with
  | append data =>
    rcases append_spec h (hserved _ rfl) with ⟨b', hb', hwf, hread⟩ | herr
    · exact Or.inl ⟨b', hb', hwf, hread⟩
    · exact Or.inr herr
  | ensureWriteBytes len data =>
    rcases ensureWriteBytes_spec h (hserved _ rfl) with ⟨roomy, hens, hwf, hread, hroom⟩ | herr
    · obtain ⟨filled, hfilled, hwritten, hwf', hread'⟩ :=
        copyIn_hasWritten hwf (Nat.le_trans hlegal.2 hroom)
      refine Or.inl ⟨_, ?_, hwf', ?_⟩
      · rw [call, hens, bind_ok, hfilled, bind_ok, hwritten]
      · rw [hread', hread]
        rfl
    · exact Or.inr (by rw [call, herr, bind_error])
  | retrieve len =>
    obtain ⟨b', hb', hwf, hread⟩ := retrieve_spec h hlegal
    exact Or.inl ⟨b', hb', hwf, by rw [hread, Op.put, List.append_nil, Op.removed]⟩
  | retrieveUntil stop =>
    obtain ⟨b', hb', hwf, hread⟩ := retrieveUntil_spec h hlegal.1 hlegal.2
    exact Or.inl ⟨b', hb', hwf, by rw [hread, Op.put, List.append_nil, Op.removed]⟩
  | retrieveAll =>
    refine Or.inl ⟨_, rfl, retrieveAll_wf h, ?_⟩
    rw [readable_retrieveAll, Op.put, List.append_nil, Op.removed, ← h.length_readable,
      List.drop_length]
  | retrieveAsString len =>
    obtain ⟨b', hb', hwf, hread⟩ := retrieveAsString_spec h hlegal
    refine Or.inl ⟨b', by rw [call, hb']; rfl, hwf, ?_⟩
    rw [hread, Op.put, List.append_nil, Op.removed]

/-- A legal call takes out no more than there is. -/
theorem removed_le (h : TrackedWF t) (hlegal : op.Legal t.buffer) :
    t.retrieved + op.removed t.buffer ≤ t.appended.length := by
  have hlen := h.readableBytes_eq
  have hle := h.retrieved_le
  cases op with
  | append data | ensureWriteBytes len data => exact hle
  | retrieve len | retrieveAsString len =>
    have hlen' : len ≤ t.buffer.readableBytes := hlegal
    change t.retrieved + len ≤ _
    omega
  | retrieveUntil stop =>
    have hstop : stop ≤ t.buffer.writerIndex := hlegal.2
    have hbytes := h.wf.readableBytes_eq
    change t.retrieved + (stop - t.buffer.readerIndex) ≤ _
    omega
  | retrieveAll =>
    change t.retrieved + t.buffer.readableBytes ≤ _
    omega

/-- The step lemma: a served call keeps the invariant. -/
theorem track_spec (h : TrackedWF t) (hlegal : op.Legal t.buffer) (hserved : Served t op) :
    (∃ t', track t op = .ok t' ∧ TrackedWF t') ∨ track t op = .error .lengthError := by
  rcases call_spec h.wf hlegal hserved with ⟨b', hb', hwf, hread⟩ | herr
  · refine Or.inl ⟨_, by rw [track, hb', bind_ok], ⟨hwf.toOrdered, ?_, ?_⟩, hwf.size_le⟩
    · rw [List.length_append]
      exact Nat.le_trans (removed_le h hlegal) (Nat.le_add_right _ _)
    · change b'.readable = (t.appended ++ op.put).drop (t.retrieved + op.removed t.buffer)
      rw [hread, h.readable_eq, ← List.drop_drop, List.drop_append_of_le_length h.retrieved_le]
  · exact Or.inr (by rw [track, herr, bind_error])

theorem granted_of_servable {len : ℕ} (h : b.WF) (hs : b.Servable len) : Granted b len := by
  rw [Granted]
  rcases ensureWriteBytes_spec h hs with ⟨roomy, hens, hwf, -, hroom⟩ | herr
  · rw [hens, outcome_ok]
    exact ⟨hwf.toOrdered, hroom⟩
  · rw [herr, outcome_error]

theorem servable_of_granted {len : ℕ} (h : b.WF) (hlen : len < sizeModulus)
    (hg : Granted b len) : b.Servable len := by
  by_contra hs
  rw [Granted] at hg
  rcases ensureWriteBytes_of_not_servable h hs hlen with herr | ⟨cut, hcut, hlt⟩
  · rw [herr, outcome_error] at hg
    exact absurd hg (by simp)
  · rw [hcut, outcome_ok] at hg
    exact absurd hg.1.writer_le (Nat.not_le.mpr hlt)

theorem request_lt {len : ℕ} (hlegal : op.Legal b) (hlen : len ∈ op.request) :
    len < sizeModulus := by
  cases op with
  | append data =>
    obtain rfl := Option.some_inj.mp hlen
    exact hlegal
  | ensureWriteBytes len' data =>
    obtain rfl := Option.some_inj.mp hlen
    exact hlegal.1
  | retrieve _ | retrieveUntil _ | retrieveAll | retrieveAsString _ =>
    exact absurd hlen (by simp [Op.request])

/-- From the invariant, a legal call is sound exactly when its request is servable. -/
theorem sound_iff_served_step (h : TrackedWF t) (hlegal : op.Legal t.buffer) :
    Sound t op ↔ Served t op := by
  constructor
  · intro hsound len hlen
    exact servable_of_granted h.wf (request_lt hlegal hlen) (hsound.1 len hlen)
  · intro hserved
    refine ⟨fun len hlen ↦ granted_of_servable h.wf (hserved len hlen), ?_⟩
    rcases track_spec h hlegal hserved with ⟨t', ht', hwf⟩ | herr
    · rw [ht', outcome_ok]
      exact hwf.toFaithful
    · rw [herr, outcome_error]

/-! ## Whole runs -/

theorem trackedWF_new {n : ℕ} (h : new n = .ok b) : TrackedWF ⟨b, [], 0⟩ := by
  obtain ⟨hwf, hread, -⟩ := new_spec h
  exact ⟨⟨hwf.toOrdered, le_rfl, hread⟩, hwf.size_le⟩

/-- **The refinement.** For every initial size and every legal sequence of calls, all calls are
sound exactly when all requests are servable. -/
theorem sound_iff_served {n : ℕ} (hnew : new n = .ok b) {ops : List Op}
    (hlegal : Along track (fun t op ↦ op.Legal t.buffer) ⟨b, [], 0⟩ ops) :
    Along track Sound ⟨b, [], 0⟩ ops ↔ Along track Served ⟨b, [], 0⟩ ops := by
  refine along_congr_of (I := TrackedWF) (fun t op t' hwf hop hserved ht' ↦ ?_)
    (fun t op hwf hop ↦ sound_iff_served_step hwf hop) (trackedWF_new hnew) hlegal
  rcases track_spec hwf hop hserved with ⟨u, hu, hwf'⟩ | herr
  · rw [hu, Except.ok.injEq] at ht'
    exact ht' ▸ hwf'
  · rw [herr] at ht'
    exact absurd ht' (by simp)

/-- Five bytes in a buffer of eight, three of them retrieved, and then four more: the three free
bytes behind the writer are too few, but with the two readable ones they are not fewer than asked
for, so the two are moved to the front and the storage stays as long as it is. -/
theorem sound_of_compacting :
    Along track Sound ⟨⟨List.replicate 8 0, 0, 0⟩, [], 0⟩
      [.append [1, 2, 3, 4, 5], .retrieve 3, .append [6, 7, 8, 9], .retrieveAsString 6] :=
  (sound_iff_served (n := 8) rfl (by decide)).mpr (by decide)

/-- Six bytes in a buffer of eight and then four more: the request is at most the two free bytes
and the six readable ones together, so the buffer compacts, and two free bytes are all there is. -/
theorem not_sound_of_overrun :
    new 8 = .ok ⟨List.replicate 8 0, 0, 0⟩ ∧
      Along track (fun t op ↦ op.Legal t.buffer) ⟨⟨List.replicate 8 0, 0, 0⟩, [], 0⟩
        [.append [1, 2, 3, 4, 5, 6], .append [7, 8, 9, 10]] ∧
      ¬Along track Sound ⟨⟨List.replicate 8 0, 0, 0⟩, [], 0⟩
        [.append [1, 2, 3, 4, 5, 6], .append [7, 8, 9, 10]] :=
  ⟨rfl, by decide, by decide⟩

end Buffer

end Twnl
