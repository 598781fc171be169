import GatedLog.Event

/-!
# What a device holds after bounded writes

A writer repeats its writes until everything is accepted or one of them fails,
so the size of a single write makes no difference.  A device of some capacity
ends up with what was to be written, cut at the capacity; and since writing
more to a full device adds nothing, it does not matter in how many portions it
came either.
-/

namespace GatedLog

namespace Device

open Logger

variable
    {device : Device}
    {content bytes : List UInt8}

/-! ## One line -/

/-- A device that does not run into writes which accept nothing before it is full. -/
def Accepting (device : Device) : Prop :=
  ∀ limit, device.chunk = some limit → 1 ≤ limit

/-- Content within the capacity of a device. -/
def Fits (device : Device) (content : List UInt8) : Prop :=
  ∀ capacity, device.capacity = some capacity → content.length ≤ capacity

/-- As many of some bytes as there is room for on an empty device. -/
def clip (device : Device) (bytes : List UInt8) : List UInt8 :=
  match device.capacity with
  | none => bytes
  | some capacity => bytes.take capacity

theorem fits_nil (device : Device) :
    device.Fits [] :=
  fun capacity _ => Nat.zero_le capacity

theorem fits_clip (device : Device) (bytes : List UInt8) :
    device.Fits (device.clip bytes) := by
  intro capacity limited
  simp only [clip, limited]
  exact List.length_take_le capacity bytes

theorem clip_of_fits (fits : device.Fits content) :
    device.clip content = content := by
  cases limited : device.capacity with
  | none =>
      simp only [clip, limited]
  | some capacity =>
      simp only [clip, limited]
      exact List.take_of_length_le (fits capacity limited)

/-- What is cut off already makes no difference to what is cut off later. -/
theorem clip_clip_append (device : Device) (first second : List UInt8) :
    device.clip (device.clip first ++ second) =
      device.clip (first ++ second) := by
  cases limited : device.capacity with
  | none =>
      simp only [clip, limited]
  | some capacity =>
      simp only [clip, limited]
      rcases Nat.le_total first.length capacity with short | long
      · rw [List.take_of_length_le short]
      · rw [List.take_append_of_le_length (by rw [List.length_take]; omega),
          List.take_append_of_le_length long, List.take_take, Nat.min_self]

/-- Of further bytes a beginning is accepted, and all of them unless the device is full then. -/
theorem exists_clip_append
    (fits : device.Fits content)
    (bytes : List UInt8) :
    ∃ written,
      device.clip (content ++ bytes) = content ++ written ∧
        written <+: bytes ∧
          (written = bytes ∨
            device.capacity = some (content ++ written).length) := by
  cases limited : device.capacity with
  | none =>
      exact ⟨bytes, by simp only [clip, limited], List.prefix_rfl, Or.inl rfl⟩
  | some capacity =>
      have within := fits capacity limited
      refine
        ⟨bytes.take (capacity - content.length), ?_,
          List.take_prefix _ bytes, ?_⟩
      · simp only [clip, limited]
        rw [List.take_append, List.take_of_length_le within]
      · rcases Nat.le_total bytes.length (capacity - content.length) with
          short | long
        · exact Or.inl (List.take_of_length_le short)
        · right
          rw [List.length_append, List.length_take]
          congr 1
          omega

/-- A full device that accepts something is not there. -/
theorem accepts_pos
    (accepting : device.Accepting)
    (free : device.isFull content = false)
    {size : Nat}
    (some_bytes : 0 < size) :
    0 < device.accepts content size := by
  have room :
      ∀ capacity, device.capacity = some capacity →
        content.length < capacity := by
    intro capacity limited
    simpa [isFull, limited] using free
  unfold accepts
  cases chunked : device.chunk with
  | none =>
      cases limited : device.capacity with
      | none =>
          simpa using some_bytes
      | some capacity =>
          have left := room capacity limited
          simp only [Option.map_some]
          omega
  | some chunk =>
      have positive := accepting chunk chunked
      cases limited : device.capacity with
      | none =>
          simp only [Option.map_none]
          omega
      | some capacity =>
          have left := room capacity limited
          simp only [Option.map_some]
          omega

theorem accepts_le_room
    {capacity : Nat}
    (limited : device.capacity = some capacity)
    (content : List UInt8)
    (size : Nat) :
    device.accepts content size ≤ capacity - content.length := by
  unfold accepts
  cases device.chunk <;> simp only [limited, Option.map_some] <;> omega

theorem fits_append_take
    (fits : device.Fits content)
    (bytes : List UInt8)
    {count : Nat}
    (accepted : count = device.accepts content bytes.length) :
    device.Fits (content ++ bytes.take count) := by
  intro capacity limited
  have within := fits capacity limited
  have room := accepts_le_room limited content bytes.length
  rw [List.length_append, List.length_take]
  omega

/-- A full device keeps what it holds. -/
theorem clip_append_of_full
    (fits : device.Fits content)
    (full : device.isFull content = true)
    (bytes : List UInt8) :
    device.clip (content ++ bytes) = content := by
  cases limited : device.capacity with
  | none =>
      simp [isFull, limited] at full
  | some capacity =>
      have beyond : capacity ≤ content.length := by
        simpa [isFull, limited] using full
      have same : content.length = capacity :=
        Nat.le_antisymm (fits capacity limited) beyond
      simp only [clip, limited]
      exact List.take_left' same

theorem write?_eq_none_iff :
    device.write? content bytes = none ↔ device.isFull content = true := by
  simp [write?]

theorem write?_eq_some_iff {count : Nat} :
    device.write? content bytes = some count ↔
      device.isFull content = false ∧
        device.accepts content bytes.length = count := by
  simp [write?]

/-- Whatever the size of one write, a device ends up with all that it has room for. -/
theorem writeAll_eq_clip
    (accepting : device.Accepting)
    (fits : device.Fits content)
    (bytes : List UInt8) :
    device.writeAll content bytes = device.clip (content ++ bytes) := by
  fun_induction device.writeAll content bytes with
  | case1 content =>
      rw [List.append_nil, clip_of_fits fits]
  | case2 content byte rest fails =>
      exact (clip_append_of_full fits (write?_eq_none_iff.mp fails) _).symm
  | case3 content byte rest nothing =>
      -- A write that accepts nothing and does not fail is out of the question.
      rcases write?_eq_some_iff.mp nothing with ⟨room, accepted⟩
      have positive := accepts_pos accepting room (Nat.zero_lt_succ rest.length)
      exact absurd accepted (Nat.ne_of_gt positive)
  | case4 content byte rest further written induction =>
      rcases write?_eq_some_iff.mp written with ⟨_, accepted⟩
      rw [induction (fits_append_take fits (byte :: rest) accepted.symm),
        List.append_assoc, List.take_succ_cons, List.cons_append,
        List.take_append_drop]

/-! ## Many lines -/

/-- A line that a logger was given for a device, and the bytes of it that got there. -/
structure Share where
  line : Line
  written : List UInt8

/-- The bytes that were meant to get to the device. -/
def Share.meant (share : Share) : List UInt8 :=
  KernelLine.bytes share.line.severity share.line.tag share.line.message

/-- The share of a device in an event, if the line was for that device. -/
def share? (device : Device) : Event → Option Share
  | .line (.kernel _ (some other)) line written =>
      if other.handle = device.handle then some ⟨line, written⟩ else none
  | _ => none

/-- The shares of a device in some events, in order. -/
def shares (device : Device) (events : List Event) : List Share :=
  events.filterMap device.share?

/-- A device takes in lines one after the other, from some content to another. -/
inductive Absorbs (device : Device) :
    List UInt8 → List Share → List UInt8 → Prop where
  | nothing (content : List UInt8) :
      Absorbs device content [] content
  | line
      {content final : List UInt8}
      {later : List Share}
      (line : Line)
      (rest :
        Absorbs device
          (device.writeAll content (deviceBytes line)) later final) :
      Absorbs device content
        (⟨line,
            (device.writeAll content (deviceBytes line)).drop
              content.length⟩ ::
          later)
        final

theorem Absorbs.append
    {between final : List UInt8}
    {first second : List Share}
    (before : device.Absorbs content first between)
    (after : device.Absorbs between second final) :
    device.Absorbs content (first ++ second) final := by
  induction before with
  | nothing content =>
      exact after
  | line line rest induction =>
      exact .line line (induction after)

/-- What comes of lines that a device takes in one after the other. -/
structure Streamed
    (device : Device)
    (content : List UInt8)
    (shares : List Share)
    (final : List UInt8) : Prop where
  /-- The device holds all that was meant, as far as there is room for it. -/
  content_eq :
    final = device.clip (content ++ shares.flatMap Share.meant)
  /-- It holds what was written for the lines, and nothing else. -/
  written_eq : final = content ++ shares.flatMap Share.written
  /-- What was written for a line is a beginning of it. -/
  written_prefix : ∀ share ∈ shares, share.written <+: share.meant
  /-- After a line of which not everything was written, the device is full for good. -/
  full :
    ∀ (before : List Share) (share : Share) (after : List Share),
      shares = before ++ share :: after →
        share.written ≠ share.meant →
          device.capacity =
              some
                (content ++ before.flatMap Share.written ++
                  share.written).length ∧
            ∀ other ∈ after, other.written = []

/-- A line of which a part was written, but not the whole, is the only one. -/
theorem Streamed.whole_of_cut
    {final : List UInt8}
    {before after : List Share}
    {share : Share}
    (streamed : device.Streamed content (before ++ share :: after) final)
    (begun : share.written ≠ [])
    {other : Share}
    (member : other ∈ before) :
    other.written = other.meant := by
  by_cases whole : other.written = other.meant
  · exact whole
  · rcases List.append_of_mem member with ⟨earlier, between, rfl⟩
    have full :=
      streamed.full earlier other (between ++ share :: after)
        (by simp) whole
    exact absurd (full.2 share (by simp)) begun

/-- One line more at the beginning. -/
theorem Streamed.cons
    {line : Line}
    {written final : List UInt8}
    {later : List Share}
    (streamed : device.Streamed (content ++ written) later final)
    (content_eq : content ++ written = device.clip (content ++ deviceBytes line))
    (beginning : written <+: deviceBytes line)
    (whole_or_full :
      written = deviceBytes line ∨
        device.capacity = some (content ++ written).length) :
    device.Streamed content (⟨line, written⟩ :: later) final where
  content_eq := by
    rw [streamed.content_eq, content_eq, clip_clip_append, List.append_assoc]
    rfl
  written_eq := by
    rw [streamed.written_eq, List.append_assoc]
    rfl
  written_prefix :=
    List.forall_mem_cons.mpr ⟨beginning, streamed.written_prefix⟩
  full before share after split unfinished := by
    cases before with
    | nil =>
        rcases List.cons_eq_cons.mp split with ⟨rfl, rfl⟩
        have limited := whole_or_full.resolve_left unfinished
        -- What comes later finds the device full, and adds nothing.
        have kept :
            device.clip ((content ++ written) ++ later.flatMap Share.meant) =
              content ++ written :=
          clip_append_of_full
            (fun capacity same => by
              rw [limited] at same
              exact Nat.le_of_eq (Option.some.inj same))
            (by simp [isFull, limited]) _
        have nothing : later.flatMap Share.written = [] := by
          have same := streamed.written_eq.symm.trans streamed.content_eq
          rw [kept] at same
          exact List.append_right_eq_self.mp same
        refine ⟨?_, List.flatMap_eq_nil_iff.mp nothing⟩
        rw [List.flatMap_nil, List.append_nil]
        exact limited
    | cons first before =>
        rcases List.cons_eq_cons.mp split with ⟨rfl, rfl⟩
        have full := streamed.full before share after rfl unfinished
        rw [List.append_assoc content] at full
        exact full

/-- Devices take in lines as they should, however the bytes of one are portioned. -/
theorem Absorbs.streamed
    (accepting : device.Accepting)
    {shares : List Share}
    {final : List UInt8}
    (absorbs : device.Absorbs content shares final)
    (fits : device.Fits content) :
    device.Streamed content shares final := by
  induction absorbs with
  | nothing content =>
      exact
        ⟨by simp [clip_of_fits fits], by simp, by simp, by simp⟩
  | @line content final later line rest induction =>
      rcases exists_clip_append fits (deviceBytes line) with
        ⟨written, content_eq, beginning, whole_or_full⟩
      have after_eq := writeAll_eq_clip accepting fits (deviceBytes line)
      have later_streamed := induction (after_eq ▸ fits_clip device _)
      rw [after_eq, content_eq] at later_streamed ⊢
      rw [List.drop_left]
      exact later_streamed.cons content_eq.symm beginning whole_or_full

end Device

end GatedLog
