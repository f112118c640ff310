import Proximity.Host.Json.Reader
import Proximity.Proofs.Text.Decimal
import Proximity.Proofs.Text.Utf8

/-! What the reader makes of text that is written as the grammar has it: blanks, strings, integers
and the names of members. Each of them is taken off the front, and what follows is left. -/

namespace Proximity.Json

/-- A reader takes a value off the front of the input and leaves `rest`. -/
def Reads {α : Type} (read? : (input : Bytes) → Option (α × Rest input)) (input : Bytes) (a : α)
    (rest : Bytes) : Prop :=
  ∃ shorter, read? input = some (a, ⟨rest, shorter⟩)

/-- Blanks between the parts of a text. -/
def Gap (text : List Char) : Prop := ∀ c ∈ text, c = ' ' ∨ c = '\n' ∨ c = '\t' ∨ c = '\r'

instance (text : List Char) : Decidable (Gap text) := List.decidableBAll _ text

/-- What may stand between the quotes of a string. A backslash takes along the character behind
it. -/
inductive Raw : List Char → Prop
  | nil : Raw []
  | plain {c : Char} {text : List Char} : c ≠ '"' → c ≠ '\\' → Raw text → Raw (c :: text)
  | escaped (c : Char) {text : List Char} : Raw text → Raw ('\\' :: c :: text)

theorem raw_of_all {text : List Char} (plain : text.all fun c => c ≠ '"' ∧ c ≠ '\\') :
    Raw text := by
  induction text with
  | nil => exact .nil
  | cons c text ih =>
    rw [List.all_cons, Bool.and_eq_true, decide_eq_true_eq] at plain
    exact .plain plain.1.1 plain.1.2 (ih plain.2)

/-- A string, by what stands between its quotes. -/
def quoted (body : List Char) : List Char := '"' :: body ++ ['"']

/-- The text of a string or of an integer. -/
inductive Scalar : List Char → Prop
  | string {body : List Char} : Raw body → Scalar (quoted body)
  | natural {digits : List Char} : digits ≠ [] → (∀ c ∈ digits, c.isDigit) → Scalar digits
  | negative {digits : List Char} : digits ≠ [] → (∀ c ∈ digits, c.isDigit) → Scalar ('-' :: digits)

variable {text gap body : List Char} {b : UInt8} {rest input : Bytes} {c : Char}

theorem toNat_byte (ascii : c.toNat < 128) : (byte c).toNat = c.toNat := by
  rw [byte, UInt8.toNat_ofNat']
  omega

theorem byte_ne {d : Char} (ascii : c.toNat < 128) (ascii' : d.toNat < 128) (ne : c ≠ d) :
    byte c ≠ byte d := by
  intro same
  have codes := congrArg UInt8.toNat same
  rw [toNat_byte ascii, toNat_byte ascii'] at codes
  exact ne (Char.toNat_inj.mp codes)

theorem write_split (c : Char) (text : List Char) :
    Utf8.write (c :: text) = Utf8.write [c] ++ Utf8.write text :=
  Utf8.write_append [c] text

theorem write_cons (ascii : c.toNat < 128) :
    Utf8.write (c :: text) = byte c :: Utf8.write text := by
  rw [write_split, Utf8.write_ascii ascii]
  rfl

theorem Gap.isBlank (blank : Gap gap) : ∀ b ∈ Utf8.write gap, isBlank b := by
  induction gap with
  | nil => simp [Utf8.write]
  | cons c gap ih =>
    obtain ⟨first, others⟩ := List.forall_mem_cons.mp blank
    have ascii : c.toNat < 128 ∧ Json.isBlank (byte c) := by
      rcases first with rfl | rfl | rfl | rfl <;> decide
    rw [write_cons ascii.1]
    exact List.forall_mem_cons.mpr ⟨ascii.2, ih others⟩

theorem Gap.dropWhile (blank : Gap gap) (rest : Bytes) :
    (Utf8.write gap ++ rest).dropWhile Json.isBlank = rest.dropWhile Json.isBlank :=
  List.dropWhile_append_of_pos blank.isBlank

theorem length_lt_append (front : Bytes) (b : UInt8) (rest : Bytes) :
    rest.length < (front ++ b :: rest).length := by
  rw [List.length_append, List.length_cons]
  omega

/-- The first byte that is no blank. -/
theorem reads_next (blank : Gap gap) (other : ¬ isBlank b) (rest : Bytes) :
    Reads next? (Utf8.write gap ++ b :: rest) b rest := by
  have found : (Utf8.write gap ++ b :: rest).dropWhile isBlank = b :: rest := by
    rw [blank.dropWhile, List.dropWhile_cons_of_neg other]
  unfold Reads next?
  split
  · rename_i none
    rw [found] at none
    cases none
  · rename_i some
    rw [found] at some
    cases some
    exact ⟨length_lt_append _ _ _, rfl⟩

/-- A byte inside a string that neither ends it nor escapes the next. -/
def Inner (b : UInt8) : Prop := b ≠ byte '"' ∧ b ≠ byte '\\'

/-- A character is one byte, or bytes above the ASCII range, where there is no punctuation. -/
theorem write_singleton_cases (c : Char) :
    c.toNat < 128 ∧ Utf8.write [c] = [byte c] ∨ ∀ b ∈ Utf8.write [c], Inner b := by
  by_cases ascii : c.toNat < 128
  · exact Or.inl ⟨ascii, Utf8.write_ascii ascii⟩
  · refine Or.inr fun b member => ?_
    rw [Utf8.write, List.flatMap_singleton] at member
    have high : 128 ≤ b.toNat := by
      have := Utf8.le_of_mem_encode member
      omega
    constructor <;> rintro rfl <;> exact absurd high (by decide)

theorem inner_of_mem (noQuote : c ≠ '"') (noBackslash : c ≠ '\\') (member : b ∈ Utf8.write [c]) :
    Inner b := by
  rcases write_singleton_cases c with ⟨ascii, single⟩ | inner
  · rw [single, List.mem_singleton] at member
    subst member
    exact ⟨byte_ne ascii (by decide) noQuote, byte_ne ascii (by decide) noBackslash⟩
  · exact inner b member

theorem reads_stringBody_nil (rest : Bytes) : Reads stringBody? (byte '"' :: rest) [] rest :=
  ⟨_, (stringBody?.eq_def _).trans (if_pos rfl)⟩

theorem reads_stringBody_cons {text : Bytes} (inner : Inner b)
    (reads : Reads stringBody? input text rest) :
    Reads stringBody? (b :: input) (b :: text) rest := by
  obtain ⟨shorter, read⟩ := reads
  refine ⟨Nat.lt_succ_of_lt shorter, (stringBody?.eq_def _).trans ?_⟩
  simp only [if_neg inner.1, if_neg inner.2, read]
  rfl

theorem reads_stringBody_escaped {text : Bytes} (b : UInt8)
    (reads : Reads stringBody? input text rest) :
    Reads stringBody? (byte '\\' :: b :: input) (byte '\\' :: b :: text) rest := by
  obtain ⟨shorter, read⟩ := reads
  have noQuote : byte '\\' ≠ byte '"' := by decide
  refine ⟨Nat.lt_succ_of_lt (Nat.lt_succ_of_lt shorter), (stringBody?.eq_def _).trans ?_⟩
  simp only [if_neg noQuote, if_true, read]
  rfl

theorem reads_stringBody_append {front text : Bytes} (inner : ∀ b ∈ front, Inner b)
    (reads : Reads stringBody? input text rest) :
    Reads stringBody? (front ++ input) (front ++ text) rest := by
  induction front with
  | nil => exact reads
  | cons b front ih =>
    obtain ⟨first, others⟩ := List.forall_mem_cons.mp inner
    exact reads_stringBody_cons first (ih others)

/-- A string ends at its closing quote, whatever is escaped inside. -/
theorem Raw.reads_body (raw : Raw body) (rest : Bytes) :
    Reads stringBody? (Utf8.write body ++ byte '"' :: rest) (Utf8.write body) rest := by
  induction raw with
  | nil => exact reads_stringBody_nil rest
  | @plain c text noQuote noBackslash _ ih =>
    rw [write_split, List.append_assoc]
    exact reads_stringBody_append (fun b => inner_of_mem noQuote noBackslash) ih
  | @escaped c text _ ih =>
    -- The byte behind the backslash is taken as it is, and the character may have more bytes.
    obtain ⟨b, others, bytes, inner⟩ : ∃ b others, Utf8.write [c] = b :: others ∧
        ∀ b ∈ others, Inner b := by
      rcases write_singleton_cases c with ⟨-, single⟩ | inner
      · exact ⟨byte c, [], single, by simp⟩
      · cases bytes : Utf8.write [c] with
        | nil => simp [Utf8.write, String.utf8EncodeChar_ne_nil] at bytes
        | cons b others =>
          rw [bytes] at inner
          exact ⟨b, others, rfl, (List.forall_mem_cons.mp inner).2⟩
    rw [write_cons (by decide), write_split, bytes]
    simp only [List.cons_append, List.append_assoc]
    exact reads_stringBody_escaped b (reads_stringBody_append inner ih)

theorem read?_write (text : List Char) :
    Utf8.read? (Utf8.write text) = some (String.ofList text) := by
  have same : (⟨(Utf8.write text).toArray⟩ : ByteArray) = (String.ofList text).toByteArray := by
    show _ = text.utf8Encode
    rw [List.utf8Encode, ← Utf8.write]
    exact ByteArray.ext (by simp)
  rw [Utf8.read?, same, String.fromUTF8?, dif_pos (String.isValidUTF8 _)]
  rfl

theorem Raw.reads_text (raw : Raw body) (rest : Bytes) :
    Reads stringText? (Utf8.write body ++ byte '"' :: rest) (String.ofList body) rest := by
  obtain ⟨shorter, read⟩ := raw.reads_body rest
  exact ⟨shorter, by simp [stringText?, read, read?_write]⟩

/-- ASCII text is as many bytes. -/
theorem write_eq_map (ascii : ∀ c ∈ text, c.toNat < 128) : Utf8.write text = text.map byte := by
  induction text with
  | nil => rfl
  | cons c text ih =>
    rw [write_cons (ascii c List.mem_cons_self), List.map_cons,
      ih fun d member => ascii d (List.mem_cons_of_mem _ member)]

theorem toNat_of_isDigit (digit : c.isDigit) : 48 ≤ c.toNat ∧ c.toNat ≤ 57 := by
  simp only [Char.isDigit, Bool.and_eq_true, decide_eq_true_eq, UInt32.le_iff_toNat_le] at digit
  exact digit

theorem ascii_of_isDigit (digit : c.isDigit) : c.toNat < 128 :=
  Nat.lt_of_le_of_lt (toNat_of_isDigit digit).2 (by decide)

theorem isDigit_byte (digit : c.isDigit) : isDigit (byte c) := by
  obtain ⟨ge, le⟩ := toNat_of_isDigit digit
  have code := toNat_byte (ascii_of_isDigit digit)
  have zero : (byte '0').toNat = 48 := rfl
  have nine : (byte '9').toNat = 57 := rfl
  simp only [isDigit, Bool.and_eq_true, decide_eq_true_eq, UInt8.le_iff_toNat_le]
  omega

theorem write_digits {digits : List Char} (all : ∀ c ∈ digits, c.isDigit) :
    Utf8.write digits = digits.map byte :=
  write_eq_map fun c member => ascii_of_isDigit (all c member)

/-- The digits of a number are read as the number. -/
theorem foldl_digits {digits : List Char} (all : ∀ c ∈ digits, c.isDigit) (init : Nat) :
    (digits.map byte).foldl (fun n d => 10 * n + (d.toNat - (byte '0').toNat)) init =
      Nat.ofDigitChars 10 digits init := by
  induction digits generalizing init with
  | nil => rfl
  | cons c digits ih =>
    obtain ⟨digit, others⟩ := List.forall_mem_cons.mp all
    rw [List.map_cons, List.foldl_cons, ih others, toNat_byte (ascii_of_isDigit digit)]
    rfl

/-- The number that starts with a digit goes as far as there are digits. -/
theorem reads_digits {digits : List Char} (digit : c.isDigit) (notZero : c ≠ '0')
    (all : ∀ d ∈ digits, d.isDigit) (stops : ∀ b ∈ rest.head?, ¬ isDigit b) :
    Reads natural? (Utf8.write (c :: digits) ++ rest) (Nat.ofDigitChars 10 (c :: digits) 0)
      rest := by
  have every : ∀ d ∈ c :: digits, d.isDigit := List.forall_mem_cons.mpr ⟨digit, all⟩
  have run : ∀ b ∈ digits.map byte, isDigit b := List.forall_mem_map.mpr fun d member =>
    isDigit_byte (all d member)
  have stop : rest.takeWhile isDigit = [] ∧ rest.dropWhile isDigit = rest := by
    cases rest with
    | nil => exact ⟨rfl, rfl⟩
    | cons b rest =>
      have no := stops b rfl
      exact ⟨List.takeWhile_cons_of_neg no, List.dropWhile_cons_of_neg no⟩
  have front : (digits.map byte ++ rest).takeWhile isDigit = digits.map byte := by
    rw [List.takeWhile_append_of_pos run, stop.1, List.append_nil]
  have behind : (digits.map byte ++ rest).dropWhile isDigit = rest := by
    rw [List.dropWhile_append_of_pos run, stop.2]
  have zero : byte c ≠ byte '0' := byte_ne (ascii_of_isDigit digit) (by decide) notZero
  rw [← foldl_digits every, write_digits every, List.map_cons, List.cons_append]
  unfold Reads natural?
  simp only [if_neg zero, isDigit_byte digit, if_true, front, behind]
  refine ⟨?_, trivial⟩
  rw [List.length_cons, List.length_append]
  omega

theorem reads_natural (n : Nat) (stops : ∀ b ∈ rest.head?, ¬ isDigit b) :
    Reads natural? (Utf8.write (Decimal.write n) ++ rest) n rest := by
  rcases Nat.eq_zero_or_pos n with rfl | positive
  · exact ⟨_, rfl⟩
  · have number := Nat.ofDigitChars_ten_toDigits (n := n)
    obtain ⟨c, digits, written, digit⟩ := Decimal.exists_write_eq_cons n
    have notZero := Decimal.head?_write_ne_zero positive
    have all : ∀ d ∈ digits, d.isDigit := fun d member =>
      Decimal.isDigit_of_mem_write (n := n) (written ▸ List.mem_cons_of_mem c member)
    rw [← Decimal.write, written] at number
    rw [written] at notZero ⊢
    have reads := reads_digits digit (fun same => notZero (congrArg some same)) all stops
    rwa [number] at reads

/-- No number without sign starts with a minus sign. -/
theorem natural?_negative (rest : Bytes) : natural? (byte '-' :: rest) = none := rfl

theorem reads_integer_of_natural {n : Nat} (noSign : b ≠ byte '-')
    (reads : Reads natural? (b :: input) n rest) : Reads integer? (b :: input) n rest := by
  obtain ⟨shorter, read⟩ := reads
  exact ⟨shorter, by rw [integer?, if_neg noSign, read]; rfl⟩

theorem reads_integer_negative {n : Nat} (reads : Reads natural? input n rest) :
    Reads integer? (byte '-' :: input) (-n) rest := by
  obtain ⟨shorter, read⟩ := reads
  exact ⟨Nat.lt_succ_of_lt shorter, by rw [integer?, if_pos rfl, read]; rfl⟩

theorem exists_write_natural (n : Nat) :
    ∃ c bytes, Utf8.write (Decimal.write n) = byte c :: bytes ∧ c.isDigit := by
  obtain ⟨c, digits, written, digit⟩ := Decimal.exists_write_eq_cons n
  exact ⟨c, Utf8.write digits, by rw [written, write_cons (ascii_of_isDigit digit)], digit⟩

theorem write_negative (n : Nat) : Utf8.write (Decimal.writeInt (.negSucc n)) =
    byte '-' :: Utf8.write (Decimal.write (n + 1)) :=
  write_cons (by decide)

theorem reads_integer (n : Int) (stops : ∀ b ∈ rest.head?, ¬ isDigit b) :
    Reads integer? (Utf8.write (Decimal.writeInt n) ++ rest) n rest := by
  cases n with
  | ofNat n =>
    have reads := reads_natural n stops
    obtain ⟨c, bytes, written, digit⟩ := exists_write_natural n
    have noSign : byte c ≠ byte '-' :=
      byte_ne (ascii_of_isDigit digit) (by decide) (by rintro rfl; cases digit)
    show Reads integer? (Utf8.write (Decimal.write n) ++ rest) n rest
    rw [written] at reads ⊢
    exact reads_integer_of_natural noSign reads
  | negSucc n =>
    rw [write_negative]
    exact reads_integer_negative (reads_natural (n + 1) stops)

theorem reads_string (blank : Gap gap) (raw : Raw body) (rest : Bytes) :
    Reads string? (Utf8.write gap ++ byte '"' :: (Utf8.write body ++ byte '"' :: rest))
      (String.ofList body) rest := by
  obtain ⟨_, next⟩ := reads_next blank (show ¬ isBlank (byte '"') by decide) _
  obtain ⟨_, read⟩ := raw.reads_text rest
  exact ⟨_, by rw [string?, next]; simp [read]; rfl⟩

/-- A byte that an integer starts with. -/
def StartsNumber (b : UInt8) : Prop := isDigit b ∨ b = byte '-'

theorem StartsNumber.ne {d : UInt8} (starts : StartsNumber b) (noDigit : ¬ isDigit d)
    (noSign : d ≠ byte '-') : b ≠ d := by
  rintro rfl
  exact starts.elim noDigit noSign

theorem StartsNumber.not_isBlank (starts : StartsNumber b) : ¬ isBlank b := by
  simp only [isBlank, Bool.or_eq_true, decide_eq_true_eq, not_or]
  refine ⟨⟨⟨?_, ?_⟩, ?_⟩, ?_⟩ <;> exact starts.ne (by decide) (by decide)

theorem StartsNumber.not_isDelimiter (starts : StartsNumber b) : ¬ isDelimiter b := by
  simp only [isDelimiter, Bool.or_eq_true, decide_eq_true_eq, not_or]
  refine ⟨⟨?_, ?_⟩, ?_⟩ <;> exact starts.ne (by decide) (by decide)

/-- A value is skipped, and `rest` is left. -/
def Skips (input rest : Bytes) : Prop := ∃ shorter, skipValue? input = some ⟨rest, shorter⟩

/-- A string of no use is skipped to its closing quote. -/
theorem skips_string (blank : Gap gap) (raw : Raw body) (rest : Bytes) :
    Skips (Utf8.write gap ++ byte '"' :: (Utf8.write body ++ byte '"' :: rest)) rest := by
  obtain ⟨_, next⟩ := reads_next blank (show ¬ isBlank (byte '"') by decide) _
  obtain ⟨_, read⟩ := raw.reads_text rest
  exact ⟨_, (skipValue?.eq_def _).trans (by rw [next]; simp [read]; rfl)⟩

/-- A number of no use is skipped with all that stands before the next delimiter. -/
theorem skips_number {front : Bytes} {d : UInt8} (blank : Gap gap) (starts : StartsNumber b)
    (inside : ∀ b ∈ front, ¬ isDelimiter b) (ends : isDelimiter d) (rest : Bytes) :
    Skips (Utf8.write gap ++ b :: (front ++ d :: rest)) (d :: rest) := by
  obtain ⟨_, next⟩ := reads_next blank starts.not_isBlank _
  have skipped : skipScalar? (front ++ d :: rest) = some (d :: rest) := by
    have found : (front ++ d :: rest).dropWhile (!isDelimiter ·) = d :: rest := by
      rw [List.dropWhile_append_of_pos (by simpa using inside),
        List.dropWhile_cons_of_neg (by simpa using ends)]
    rw [skipScalar?, found]
  refine ⟨?_, (skipValue?.eq_def _).trans ?_⟩
  · simp
    omega
  · rw [next]
    simp only [Option.bind_eq_bind, Option.bind_some, if_neg starts.not_isDelimiter,
      if_neg (starts.ne (d := byte '"') (by decide) (by decide)),
      if_neg (starts.ne (d := byte '\x7b') (by decide) (by decide)),
      if_neg (starts.ne (d := byte '[') (by decide) (by decide))]
    split
    · rename_i none
      rw [skipped] at none
      cases none
    · rename_i some
      rw [skipped] at some
      cases some
      rfl

theorem startsNumber_of_isDigit (digit : c.isDigit) : StartsNumber (byte c) :=
  Or.inl (isDigit_byte digit)

theorem not_isDelimiter_of_isBlank (blank : isBlank b) : ¬ isDelimiter b := by
  simp only [isBlank, Bool.or_eq_true, decide_eq_true_eq] at blank
  rcases blank with ((rfl | rfl) | rfl) | rfl <;> decide

/-- What stands before the next delimiter, behind the first byte of a number. -/
theorem not_isDelimiter_of_mem {digits : List Char} (all : ∀ c ∈ digits, c.isDigit)
    (blank : Gap gap) : ∀ b ∈ Utf8.write digits ++ Utf8.write gap, ¬ isDelimiter b := by
  intro b member
  rcases List.mem_append.mp member with inDigits | inGap
  · rw [write_digits all] at inDigits
    obtain ⟨c, inside, rfl⟩ := List.mem_map.mp inDigits
    exact (startsNumber_of_isDigit (all c inside)).not_isDelimiter
  · exact not_isDelimiter_of_isBlank (blank.isBlank b inGap)

theorem write_quoted_append (body : List Char) (rest : Bytes) :
    Utf8.write (quoted body) ++ rest = byte '"' :: (Utf8.write body ++ byte '"' :: rest) := by
  rw [quoted, List.cons_append, write_cons (by decide), Utf8.write_append,
    Utf8.write_ascii (by decide), List.cons_append, List.append_assoc]
  rfl

/-- No digit follows a number before the next delimiter. -/
theorem not_isDigit_of_head? {d : UInt8} (blank : Gap gap) (ends : isDelimiter d) (rest : Bytes) :
    ∀ b ∈ (Utf8.write gap ++ d :: rest).head?, ¬ isDigit b := by
  have apart {b : UInt8} (digit : isDigit b) : ¬ isBlank b ∧ ¬ isDelimiter b :=
    ⟨StartsNumber.not_isBlank (Or.inl digit), StartsNumber.not_isDelimiter (Or.inl digit)⟩
  intro b first digit
  cases bytes : Utf8.write gap with
  | nil =>
    rw [bytes] at first
    cases first
    exact (apart digit).2 ends
  | cons b' others =>
    rw [bytes] at first
    cases first
    exact (apart digit).1 (blank.isBlank b (bytes ▸ List.mem_cons_self))

theorem exists_startsNumber (n : Int) :
    ∃ b bytes, Utf8.write (Decimal.writeInt n) = b :: bytes ∧ StartsNumber b := by
  cases n with
  | ofNat n =>
    obtain ⟨c, bytes, written, digit⟩ := exists_write_natural n
    exact ⟨byte c, bytes, written, startsNumber_of_isDigit digit⟩
  | negSucc n => exact ⟨byte '-', _, write_negative n, Or.inr rfl⟩

/-- What may be `null` but starts like a number is left to the reader of numbers. -/
theorem orNull?_eq_map {α : Type} {read? : (input : Bytes) → Option (α × Rest input)}
    (blank : Gap gap) (starts : StartsNumber b) :
    orNull? read? (Utf8.write gap ++ b :: input) =
      (read? (b :: input)).map fun (a, rest) =>
        (some a, rest.within (List.sublist_append_right _ _).length_le) := by
  have found : (Utf8.write gap ++ b :: input).dropWhile isBlank = b :: input := by
    rw [blank.dropWhile, List.dropWhile_cons_of_neg starts.not_isBlank]
  unfold orNull?
  split
  · rename_i none
    rw [found] at none
    cases none
  · rename_i some
    rw [found] at some
    cases some
    rw [if_neg (starts.ne (by decide) (by decide))]

theorem reads_orNull {α : Type} {read? : (input : Bytes) → Option (α × Rest input)} {a : α}
    {n : Int} (blank : Gap gap)
    (reads : Reads read? (Utf8.write (Decimal.writeInt n) ++ input) a rest) :
    Reads (orNull? read?) (Utf8.write gap ++ (Utf8.write (Decimal.writeInt n) ++ input)) (some a)
      rest := by
  obtain ⟨b, bytes, written, starts⟩ := exists_startsNumber n
  rw [written, List.cons_append] at reads ⊢
  obtain ⟨_, read⟩ := reads
  exact ⟨_, by rw [orNull?_eq_map blank starts, read]; rfl⟩

theorem orNull?_eq_none {α : Type} {read? : (input : Bytes) → Option (α × Rest input)} {n : Int}
    (blank : Gap gap) (refused : read? (Utf8.write (Decimal.writeInt n) ++ input) = none) :
    orNull? read? (Utf8.write gap ++ (Utf8.write (Decimal.writeInt n) ++ input)) = none := by
  obtain ⟨b, bytes, written, starts⟩ := exists_startsNumber n
  rw [written, List.cons_append] at refused ⊢
  rw [orNull?_eq_map blank starts, refused]
  rfl

theorem Scalar.skips {value gap' : List Char} {d : UInt8} (scalar : Scalar value) (blank : Gap gap)
    (blank' : Gap gap') (ends : isDelimiter d) (rest : Bytes) :
    ∃ after, Gap after ∧
      Skips (Utf8.write gap ++ (Utf8.write value ++ (Utf8.write gap' ++ d :: rest)))
        (Utf8.write after ++ d :: rest) := by
  cases scalar with
  | string raw =>
    rw [write_quoted_append]
    exact ⟨gap', blank', skips_string blank raw _⟩
  | @natural digits some all =>
    obtain ⟨c, digits, rfl⟩ := List.exists_cons_of_ne_nil some
    obtain ⟨digit, all⟩ := List.forall_mem_cons.mp all
    have skips := skips_number blank (startsNumber_of_isDigit digit)
      (not_isDelimiter_of_mem all blank') ends rest
    rw [write_cons (ascii_of_isDigit digit), List.cons_append]
    rw [List.append_assoc] at skips
    exact ⟨[], List.forall_mem_nil _, skips⟩
  | @negative digits some all =>
    have skips := skips_number blank (Or.inr rfl) (not_isDelimiter_of_mem all blank') ends rest
    rw [write_cons (by decide), List.cons_append]
    rw [List.append_assoc] at skips
    exact ⟨[], List.forall_mem_nil _, skips⟩

/-- What follows in the object is a member of the given name, and `rest` behind its colon. -/
def Names (member? : (input : Bytes) → Option (Member input)) (input : Bytes) (key : List Char)
    (rest : Bytes) : Prop :=
  ∃ shorter, member? input = some (.name (String.ofList key) ⟨rest, shorter⟩)

theorem names_of_quote {gap : List Char} (raw : Raw body) (blank : Gap gap) (rest : Bytes) :
    Names memberName? (Utf8.write body ++ byte '"' :: (Utf8.write gap ++ byte ':' :: rest)) body
      rest := by
  obtain ⟨_, read⟩ := raw.reads_text (Utf8.write gap ++ byte ':' :: rest)
  obtain ⟨_, next⟩ := reads_next blank (show ¬ isBlank (byte ':') by decide) rest
  exact ⟨_, by rw [memberName?, read]; simp [next]; rfl⟩

theorem names_first (blank : Gap gap) (names : Names memberName? input body rest) :
    Names (member? true) (Utf8.write gap ++ byte '"' :: input) body rest := by
  obtain ⟨_, next⟩ := reads_next blank (show ¬ isBlank (byte '"') by decide) input
  obtain ⟨_, read⟩ := names
  exact ⟨_, by rw [member?, next]; simp [read]; rfl⟩

/-- There is a comma before every member but the first. -/
theorem names_later {comma : List Char} (between : Gap comma) (blank : Gap gap)
    (names : Names memberName? input body rest) :
    Names (member? false) (Utf8.write comma ++ byte ',' :: (Utf8.write gap ++ byte '"' :: input))
      body rest := by
  have noEnd : byte ',' ≠ byte '\x7d' := by decide
  obtain ⟨_, first⟩ := reads_next between (show ¬ isBlank (byte ',') by decide)
    (Utf8.write gap ++ byte '"' :: input)
  obtain ⟨_, next⟩ := reads_next blank (show ¬ isBlank (byte '"') by decide) input
  obtain ⟨_, read⟩ := names
  exact ⟨_, by rw [member?, first]; simp [noEnd, next, read]; rfl⟩

/-- The object ends. -/
theorem member?_stop (first : Bool) (blank : Gap gap) (rest : Bytes) :
    ∃ shorter,
      member? first (Utf8.write gap ++ byte '\x7d' :: rest) = some (.stop ⟨rest, shorter⟩) := by
  obtain ⟨shorter, next⟩ := reads_next blank (show ¬ isBlank (byte '\x7d') by decide) rest
  exact ⟨shorter, by rw [member?, next]; rfl⟩

end Proximity.Json
