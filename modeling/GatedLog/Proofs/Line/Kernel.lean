import GatedLog.Line.Kernel
import GatedLog.Proofs.Text.Utf8
import Mathlib.Data.List.TakeDrop

/-!
# A line always fits the kernel's buffer

A line that fits is written as it is, so under one tag the kernel's buffer
determines the level and the message.  The notice that stands for a longer line
says how many bytes the line has.  Besides the tag and that number it has 39
bytes, so it is complete as long as those two have at most 985.  Whatever is
written ends with its only line feed, or it is a clamped notice, which fills the
buffer and has none.
-/

namespace GatedLog.KernelLine

variable
    {severity : Severity}
    {tag message : String}

/-- The byte that ends a line. -/
def lineFeed : UInt8 :=
  10

/-- The level, as every line begins with it. -/
def level (severity : Severity) : String :=
  "<" ++ Decimal.text severity.kernelLevel ++ ">"

/-- The bytes end with a line feed and have no other one. -/
def EndsOnce (bytes : List UInt8) : Prop :=
  ∃ front, lineFeed ∉ front ∧ bytes = front ++ [lineFeed]

/-- The buffer holds the line in full. -/
def Fits (severity : Severity) (tag message : String) : Prop :=
  (full severity tag message).length ≤ bufferSize

/-- The notice that would stand for a line, with the line's own size. -/
def noticeOf (severity : Severity) (tag message : String) : List UInt8 :=
  notice severity tag (full severity tag message).length

/-- The buffer holds neither the line nor its notice. -/
def Clamped (severity : Severity) (tag message : String) : Prop :=
  ¬ Fits severity tag message ∧
    bufferSize < (noticeOf severity tag message).length

/-! ## What a line and a notice are made of -/

theorem opening_eq (severity : Severity) (tag : String) :
    opening severity tag = level severity ++ tag ++ ": " :=
  rfl

theorem full_eq (severity : Severity) (tag message : String) :
    full severity tag message =
      Utf8.encode (opening severity tag ++ message) ++ [lineFeed] :=
  Utf8.encode_append _ _

theorem notice_eq (severity : Severity) (tag : String) (size : Nat) :
    notice severity tag size =
      Utf8.encode
        (opening severity tag ++ Decimal.text size ++
          "-byte message too long for printk") ++ [lineFeed] := by
  have ended :
      "-byte message too long for printk\n" =
        "-byte message too long for printk" ++ "\n" := rfl
  rw [notice, ended, ← String.append_assoc, Utf8.encode_append]
  rfl

theorem level_prefix_opening (severity : Severity) (tag : String) :
    Utf8.encode (level severity) <+: Utf8.encode (opening severity tag) := by
  rw [opening_eq, String.append_assoc, Utf8.encode_append]
  exact List.prefix_append _ _

theorem utf8ByteSize_level (severity : Severity) :
    (level severity).utf8ByteSize = 3 := by
  cases severity <;> rfl

/-- Besides the tag an opening has the level and two characters. -/
theorem utf8ByteSize_opening (severity : Severity) (tag : String) :
    (opening severity tag).utf8ByteSize = tag.utf8ByteSize + 5 := by
  have separator : (": " : String).utf8ByteSize = 2 := rfl
  rw [opening_eq, String.utf8ByteSize_append, String.utf8ByteSize_append,
    utf8ByteSize_level, separator]
  omega

theorem length_full (severity : Severity) (tag message : String) :
    (full severity tag message).length =
      tag.utf8ByteSize + message.utf8ByteSize + 6 := by
  rw [full_eq, List.length_append, Utf8.length_encode,
    String.utf8ByteSize_append, utf8ByteSize_opening, List.length_singleton]
  omega

theorem length_notice (severity : Severity) (tag : String) (size : Nat) :
    (notice severity tag size).length =
      tag.utf8ByteSize + (Decimal.digits size).length + 39 := by
  have words :
      ("-byte message too long for printk" : String).utf8ByteSize = 33 := rfl
  rw [notice_eq, List.length_append, Utf8.length_encode,
    String.utf8ByteSize_append, String.utf8ByteSize_append,
    utf8ByteSize_opening, Decimal.utf8ByteSize_text, words, List.length_singleton]
  omega

/-- The opening tells levels apart, and then it tells messages apart. -/
theorem opening_append_inj
    {other : Severity}
    {text : String} :
    opening severity tag ++ message = opening other tag ++ text ↔
      severity.kernelLevel = other.kernelLevel ∧ message = text := by
  constructor
  · intro equality
    have characters := congrArg String.toList equality
    simp only [opening, Decimal.text, String.toList_append, String.toList_ofList,
      List.append_assoc] at characters
    rcases Text.fields_eq_of_first
        (Decimal.not_mem_digits rfl _) (Decimal.not_mem_digits rfl _)
        (List.append_cancel_left characters) with
      ⟨levels, rest⟩
    exact
      ⟨Decimal.digits_injective levels,
        String.toList_injective
          (List.append_cancel_left (List.append_cancel_left rest))⟩
  · rintro ⟨levels, rfl⟩
    rw [opening, opening, levels]

/-! ## Line feeds -/

theorem lineFeed_mem_encode_iff {text : String} :
    lineFeed ∈ Utf8.encode text ↔ '\n' ∈ text.toList := by
  have ascii : '\n'.toNat < 0x80 := by decide
  exact Utf8.mem_encode_iff ascii

theorem lineFeed_not_mem_opening
    (tag_line : '\n' ∉ tag.toList) :
    '\n' ∉ (opening severity tag).toList := by
  simp [opening, Decimal.text, tag_line, Decimal.not_mem_digits]

theorem endsOnce_full
    (tag_line : '\n' ∉ tag.toList)
    (message_line : '\n' ∉ message.toList) :
    EndsOnce (full severity tag message) := by
  refine ⟨_, ?_, full_eq severity tag message⟩
  rw [lineFeed_mem_encode_iff]
  simp [lineFeed_not_mem_opening tag_line, message_line]

theorem endsOnce_notice
    (tag_line : '\n' ∉ tag.toList)
    (size : Nat) :
    EndsOnce (notice severity tag size) := by
  refine ⟨_, ?_, notice_eq severity tag size⟩
  rw [lineFeed_mem_encode_iff]
  simp [lineFeed_not_mem_opening tag_line, Decimal.text, Decimal.not_mem_digits]

/-- Bytes that end once have no line feed left when they are cut short. -/
theorem lineFeed_not_mem_take
    {bytes : List UInt8}
    {count : Nat}
    (ends : EndsOnce bytes)
    (short : count < bytes.length) :
    lineFeed ∉ bytes.take count := by
  rcases ends with ⟨front, free, rfl⟩
  have inside : count ≤ front.length := by
    rw [List.length_append, List.length_singleton] at short
    exact Nat.le_of_lt_succ short
  rw [List.take_append_of_le_length inside]
  exact fun member => free (List.mem_of_mem_take member)

/-! ## What is written -/

theorem bytes_of_fits
    (fits : Fits severity tag message) :
    bytes severity tag message = full severity tag message := by
  have inside : (full severity tag message).length ≤ bufferSize := fits
  simp only [bytes, if_pos inside]

theorem bytes_of_not_fits
    (long : ¬ Fits severity tag message) :
    bytes severity tag message =
      (noticeOf severity tag message).take bufferSize := by
  have outside : ¬ (full severity tag message).length ≤ bufferSize := long
  simp only [bytes, if_neg outside, noticeOf]

theorem length_bytes_le (severity : Severity) (tag message : String) :
    (bytes severity tag message).length ≤ bufferSize := by
  by_cases fits : Fits severity tag message
  · rw [bytes_of_fits fits]
    exact fits
  · rw [bytes_of_not_fits fits]
    exact List.length_take_le _ _

/-- A cut never reaches into the level. -/
theorem level_prefix_bytes (severity : Severity) (tag message : String) :
    Utf8.encode (level severity) <+: bytes severity tag message := by
  by_cases fits : Fits severity tag message
  · rw [bytes_of_fits fits, full_eq, Utf8.encode_append, List.append_assoc]
    exact
      (level_prefix_opening severity tag).trans (List.prefix_append _ _)
  · have opened : Utf8.encode (level severity) <+: noticeOf severity tag message := by
      rw [noticeOf, notice_eq, String.append_assoc, Utf8.encode_append,
        List.append_assoc]
      exact (level_prefix_opening severity tag).trans (List.prefix_append _ _)
    have inside : (Utf8.encode (level severity)).length ≤ bufferSize := by
      rw [Utf8.length_encode, utf8ByteSize_level]
      decide
    rw [bytes_of_not_fits fits]
    exact List.prefix_take_iff.mpr ⟨opened, inside⟩

/-- The part of the notice that is written is all of it exactly if it fits. -/
theorem bytes_eq_noticeOf_iff
    (long : ¬ Fits severity tag message) :
    bytes severity tag message = noticeOf severity tag message ↔
      (noticeOf severity tag message).length ≤ bufferSize := by
  rw [bytes_of_not_fits long]
  exact List.take_eq_self_iff _

theorem length_noticeOf_le_iff :
    (noticeOf severity tag message).length ≤ bufferSize ↔
      tag.utf8ByteSize +
          (Decimal.digits (full severity tag message).length).length ≤ 985 := by
  rw [noticeOf, length_notice, bufferSize]
  omega

theorem endsOnce_bytes
    (tag_line : '\n' ∉ tag.toList)
    (message_line : '\n' ∉ message.toList)
    (unclamped : ¬ Clamped severity tag message) :
    EndsOnce (bytes severity tag message) := by
  by_cases fits : Fits severity tag message
  · rw [bytes_of_fits fits]
    exact endsOnce_full tag_line message_line
  · have complete : (noticeOf severity tag message).length ≤ bufferSize :=
      Nat.le_of_not_lt fun cut => unclamped ⟨fits, cut⟩
    rw [(bytes_eq_noticeOf_iff fits).mpr complete]
    exact endsOnce_notice tag_line _

theorem bytes_of_clamped
    (tag_line : '\n' ∉ tag.toList)
    (clamped : Clamped severity tag message) :
    (bytes severity tag message).length = bufferSize ∧
      lineFeed ∉ bytes severity tag message := by
  rcases clamped with ⟨long, cut⟩
  rw [bytes_of_not_fits long]
  exact
    ⟨List.length_take_of_le (Nat.le_of_lt cut),
      lineFeed_not_mem_take (endsOnce_notice tag_line _) cut⟩

/-! ## The law of the buffer -/

/-- What is written for a line, whatever its tag and its message are. -/
structure BufferLaw
    (severity : Severity)
    (tag message : String) :
    Prop where
  /-- The size of a line is counted in bytes, not in characters. -/
  sized :
    (full severity tag message).length =
      tag.utf8ByteSize + message.utf8ByteSize + 6
  /-- Nothing that is written is longer than the buffer. -/
  bounded : (bytes severity tag message).length ≤ bufferSize
  /-- The level always stands first, even before a clamped notice. -/
  opened : Utf8.encode (level severity) <+: bytes severity tag message
  /-- A line that fits is written in full. -/
  kept :
    Fits severity tag message →
      bytes severity tag message = full severity tag message
  /-- Under one tag, lines that fit are the same only if they say the same. -/
  distinct :
    ∀ other text,
      Fits severity tag message →
        Fits other tag text →
          (bytes severity tag message = bytes other tag text ↔
            severity.kernelLevel = other.kernelLevel ∧ message = text)
  /-- Of the notice for a longer line everything is written that fits. -/
  replaced :
    ¬ Fits severity tag message →
      bytes severity tag message =
        (noticeOf severity tag message).take
          (min bufferSize (noticeOf severity tag message).length)
  /-- That is the whole notice, as long as the tag leaves room for the size. -/
  complete :
    ¬ Fits severity tag message →
      (bytes severity tag message = noticeOf severity tag message ↔
        tag.utf8ByteSize +
            (Decimal.digits (full severity tag message).length).length ≤ 985)
  /-- What is not clamped ends with its only line feed. -/
  terminated :
    '\n' ∉ tag.toList →
      '\n' ∉ message.toList →
        ¬ Clamped severity tag message →
          EndsOnce (bytes severity tag message)
  /-- A clamped notice fills the buffer and has lost its line feed. -/
  clamped :
    '\n' ∉ tag.toList →
      Clamped severity tag message →
        (bytes severity tag message).length = bufferSize ∧
          lineFeed ∉ bytes severity tag message

/-- The buffer's law holds for every severity, every tag, and every message. -/
theorem bufferLaw (severity : Severity) (tag message : String) :
    BufferLaw severity tag message where
  sized := length_full severity tag message
  bounded := length_bytes_le severity tag message
  opened := level_prefix_bytes severity tag message
  kept := bytes_of_fits
  distinct := by
    intro other text fits other_fits
    rw [bytes_of_fits fits, bytes_of_fits other_fits, full_eq, full_eq,
      List.append_left_inj, Utf8.encode_inj]
    exact opening_append_inj
  replaced := by
    intro long
    rw [bytes_of_not_fits long, ← List.take_take, List.take_length]
  complete := by
    intro long
    rw [bytes_eq_noticeOf_iff long, length_noticeOf_le_iff]
  terminated := endsOnce_bytes
  clamped := bytes_of_clamped

/-- A line that is too long by far is replaced by its notice. -/
theorem bufferLaw_of_long_message :
    bytes .info "a" (String.ofList (List.replicate 1100 'x')) =
      Utf8.encode "<6>a: 1107-byte message too long for printk\n" := by
  have size :
      (full .info "a" (String.ofList (List.replicate 1100 'x'))).length = 1107 := by
    have tag_size : ("a" : String).utf8ByteSize = 1 := rfl
    have message_size :
        (String.ofList (List.replicate 1100 'x')).utf8ByteSize = 1100 := by
      rw [Utf8.utf8ByteSize_of_ascii, String.toList_ofList, List.length_replicate]
      intro character member
      rw [String.toList_ofList] at member
      rw [List.eq_of_mem_replicate member]
      decide
    rw [length_full, tag_size, message_size]
  have long : ¬ Fits .info "a" (String.ofList (List.replicate 1100 'x')) := by
    rw [Fits, size]
    decide
  have room :
      ("a" : String).utf8ByteSize +
          (Decimal.digits
            (full .info "a"
              (String.ofList (List.replicate 1100 'x'))).length).length ≤ 985 := by
    rw [size]
    decide
  have law := bufferLaw .info "a" (String.ofList (List.replicate 1100 'x'))
  rw [(law.complete long).mpr room, noticeOf, size]
  rfl

end GatedLog.KernelLine
