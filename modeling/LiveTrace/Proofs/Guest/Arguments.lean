import LiveTrace.Proofs.Run.Refusal
import LiveTrace.Proofs.Text.Decoding
import Mathlib.Data.List.Forall2

/-
  The arguments of a method, as a call finds them in guest memory. A range holds a text when it
  lies inside and its bytes are the bytes of the text (`Span.Holds`); a record of the table names
  two ranges by four words (`IsArgument`). Reading succeeds just when all ranges hold texts
  (`Span.text_eq_ok_iff`, `readRecords_eq_ok_iff`, `event_beginMethod_iff`), and a call that
  begins a method goes on just then (`callHook_beginMethod`).
-/
namespace LiveTrace

open Wasm (Memory)

/-! ## Texts in a memory -/

/-- A range lies inside a memory and its bytes there are those of a text. -/
structure Span.Holds (s : Span) (m : Memory) (text : String) : Prop where
  inside : s.stop ≤ m.size
  bytes : (List.range' s.start.toNat s.length.toNat).map m.byte = Utf8.encode text.toList

namespace Span

variable {s : Span} {m : Memory}

theorem bytes_eq_ok_iff {bs : List UInt8} :
    s.bytes (some m) = .ok bs ↔
      s.stop ≤ m.size ∧ (List.range' s.start.toNat s.length.toNat).map m.byte = bs := by
  have hread : m.read? s.start.toNat s.length.toNat =
      if s.stop ≤ m.size then some ((List.range' s.start.toNat s.length.toNat).map m.byte)
      else none := rfl
  unfold bytes
  dsimp only
  rw [hread]
  by_cases hinside : s.stop ≤ m.size <;> simp [hinside]

/-- A text is read from a range just when the range holds it. -/
theorem text_eq_ok_iff {text : String} : s.text (some m) = .ok text ↔ s.Holds m text := by
  constructor
  · intro h
    unfold Span.text at h
    cases hbytes : s.bytes (some m) with
    | error e => simp [hbytes] at h
    | ok bs =>
      obtain ⟨hinside, rfl⟩ := bytes_eq_ok_iff.mp hbytes
      simp only [hbytes] at h
      split at h
      · rename_i cs hcs
        cases h
        exact ⟨hinside, by rw [String.toList_ofList]; exact Utf8.decode_eq_ok_iff.mp hcs⟩
      · cases h
  · intro h
    have hbytes := bytes_eq_ok_iff.mpr ⟨h.inside, h.bytes⟩
    have hdecode := Utf8.decode_eq_ok_iff.mpr (rfl : Utf8.encode text.toList = _)
    unfold Span.text
    simp only [hbytes, hdecode, String.ofList_toList]

end Span

/-! ## The records of a table -/

/-- The word in four bytes of a memory, lowest byte first. -/
def wordAt (m : Memory) (a : Nat) : UInt32 :=
  .ofNat (Wasm.ofLittleEndian [m.byte a, m.byte (a + 1), m.byte (a + 2), m.byte (a + 3)])

/-- Where the name of an argument is, by the record with index `i` of the table at `table`. -/
def nameSpan (m : Memory) (table i : Nat) : Span :=
  ⟨wordAt m (table + 16 * i), wordAt m (table + 16 * i + 4)⟩

/-- Where its value is. -/
def valueSpan (m : Memory) (table i : Nat) : Span :=
  ⟨wordAt m (table + 16 * i + 8), wordAt m (table + 16 * i + 12)⟩

/-- An argument of the method `id` is what the record with index `i` says. -/
structure IsArgument (m : Memory) (id : UInt32) (table i : Nat) (a : StateChange) : Prop where
  id_eq : a.id = id
  name : (nameSpan m table i).Holds m a.name
  value : (valueSpan m table i).Holds m a.value

/-- The index of a record counts from the start of the table. -/
theorem isArgument_succ {m : Memory} {id : UInt32} {table i : Nat} {a : StateChange} :
    IsArgument m id table (i + 1) a ↔ IsArgument m id (table + argumentSize) i a := by
  have haddress : table + 16 * (i + 1) = table + argumentSize + 16 * i := by
    unfold argumentSize
    omega
  have hname : nameSpan m table (i + 1) = nameSpan m (table + argumentSize) i := by
    unfold nameSpan
    rw [haddress]
  have hvalue : valueSpan m table (i + 1) = valueSpan m (table + argumentSize) i := by
    unfold valueSpan
    rw [haddress]
  constructor
  · rintro ⟨hid, hn, hv⟩
    exact ⟨hid, hname ▸ hn, hvalue ▸ hv⟩
  · rintro ⟨hid, hn, hv⟩
    exact ⟨hid, hname ▸ hn, hvalue ▸ hv⟩

/-- A record is read when both of its texts are. -/
theorem readArgument_eq_ok_iff {m : Option Memory} {id : UInt32} {record : List UInt8}
    {a : StateChange} :
    readArgument m id record = .ok a ↔ ∃ name value,
      (Span.mk (leadingWord (record.drop (4 * 0))) (leadingWord (record.drop (4 * 1)))).text m =
          .ok name ∧
        (Span.mk (leadingWord (record.drop (4 * 2))) (leadingWord (record.drop (4 * 3)))).text m =
          .ok value ∧
        ⟨id, name, value⟩ = a := by
  unfold readArgument
  dsimp only
  constructor
  · intro h
    split at h
    · cases h
    · rename_i name hname
      split at h
      · cases h
      · rename_i value hvalue
        exact ⟨name, value, hname, hvalue, Except.ok.inj h⟩
  · rintro ⟨name, value, hname, hvalue, rfl⟩
    rw [hname]
    dsimp only
    rw [hvalue]

theorem readArgument_range_eq_ok_iff {m : Memory} {id : UInt32} {table : Nat} {a : StateChange} :
    readArgument (some m) id ((List.range' table argumentSize).map m.byte) = .ok a ↔
      IsArgument m id table 0 a := by
  rw [readArgument_eq_ok_iff]
  constructor
  · rintro ⟨name, value, hname, hvalue, rfl⟩
    exact ⟨rfl, Span.text_eq_ok_iff.mp hname, Span.text_eq_ok_iff.mp hvalue⟩
  · rintro ⟨rfl, hname, hvalue⟩
    exact ⟨_, _, Span.text_eq_ok_iff.mpr hname, Span.text_eq_ok_iff.mpr hvalue, rfl⟩

/-- A table is read when its first record and the others are. -/
theorem readRecords_succ_eq_ok_iff {m : Option Memory} {id : UInt32} {count : Nat}
    {table : List UInt8} {args : List StateChange} :
    readRecords m id (count + 1) table = .ok args ↔
      ∃ a as, readArgument m id (table.take argumentSize) = .ok a ∧
        readRecords m id count (table.drop argumentSize) = .ok as ∧ a :: as = args := by
  rw [readRecords]
  constructor
  · intro h
    split at h
    · cases h
    · rename_i a ha
      split at h
      · cases h
      · rename_i as has
        exact ⟨a, as, ha, has, Except.ok.inj h⟩
  · rintro ⟨a, as, ha, has, rfl⟩
    rw [ha]
    dsimp only
    rw [has]

/-- The bytes of a table are those of its first record and of the others. -/
theorem range_records (m : Memory) (table count : Nat) :
    (List.range' table ((count + 1) * argumentSize)).map m.byte =
      (List.range' table argumentSize).map m.byte ++
        (List.range' (table + argumentSize) (count * argumentSize)).map m.byte := by
  rw [← List.map_append, List.range'_append_1, Nat.add_mul, Nat.one_mul, Nat.add_comm]

/-- The records of a table are read as arguments just when they are their records, in order. -/
theorem readRecords_eq_ok_iff {m : Memory} {id : UInt32} {count table : Nat}
    {args : List StateChange} :
    readRecords (some m) id count ((List.range' table (count * argumentSize)).map m.byte) =
        .ok args ↔
      args.length = count ∧ ∀ i a, args[i]? = some a → IsArgument m id table i a := by
  induction count generalizing table args with
  | zero =>
    constructor
    · intro h
      cases h
      simp
    · rintro ⟨hlength, -⟩
      rw [List.eq_nil_of_length_eq_zero hlength]
      rfl
  | succ count ih =>
    have hsize : ((List.range' table argumentSize).map m.byte).length = argumentSize := by simp
    rw [readRecords_succ_eq_ok_iff, range_records, List.take_left' hsize, List.drop_left' hsize]
    simp only [readArgument_range_eq_ok_iff, ih]
    constructor
    · rintro ⟨a, as, ha, ⟨hlength, hrest⟩, rfl⟩
      refine ⟨congrArg (· + 1) hlength, fun i b hb => ?_⟩
      cases i with
      | zero =>
        cases hb
        exact ha
      | succ i => exact isArgument_succ.mpr (hrest i b hb)
    · rintro ⟨hlength, hrecords⟩
      obtain ⟨a, as, rfl⟩ := List.exists_cons_of_length_eq_add_one hlength
      exact ⟨a, as, hrecords 0 a rfl, ⟨Nat.succ.inj hlength, fun i b hb =>
        isArgument_succ.mp (hrecords (i + 1) b hb)⟩, rfl⟩

theorem readArguments_eq_ok_iff {m : Memory} {id table count : UInt32} {args : List StateChange} :
    readArguments (some m) id table count = .ok args ↔
      16 * count.toNat ≤ Number.pow2 31 - 1 ∧ table.toNat + 16 * count.toNat ≤ m.size ∧
        args.length = count.toNat ∧
        ∀ i a, args[i]? = some a → IsArgument m id table.toNat i a := by
  have hmax : maxTable = Number.pow2 31 - 1 := rfl
  have hbits : Number.pow2 31 = 2147483648 := rfl
  have hmul : count.toNat * argumentSize = 16 * count.toNat := Nat.mul_comm _ _
  unfold readArguments
  dsimp only
  by_cases hsize : 16 * count.toNat ≤ Number.pow2 31 - 1
  · have hlength :
        (UInt32.ofNat (count.toNat * argumentSize)).toNat = count.toNat * argumentSize := by
      rw [UInt32.toNat_ofNat', Nat.mod_eq_of_lt (by omega)]
    have hbytes {bs : List UInt8} :
        (Span.mk table (.ofNat (count.toNat * argumentSize))).bytes (some m) = .ok bs ↔
          table.toNat + 16 * count.toNat ≤ m.size ∧
            (List.range' table.toNat (count.toNat * argumentSize)).map m.byte = bs := by
      rw [Span.bytes_eq_ok_iff, Span.stop, hlength, hmul]
    rw [if_neg (by omega)]
    constructor
    · intro h
      split at h
      · cases h
      · rename_i bs hbs
        obtain ⟨hinside, rfl⟩ := hbytes.mp hbs
        exact ⟨hsize, hinside, readRecords_eq_ok_iff.mp h⟩
    · rintro ⟨-, hinside, hrecords⟩
      rw [hbytes.mpr ⟨hinside, rfl⟩]
      exact readRecords_eq_ok_iff.mpr hrecords
  · rw [if_pos (by omega)]
    exact ⟨nofun, fun h => absurd h.1 hsize⟩

/-! ## The beginning of a method -/

/-- The operands of a call that begins a method can be read: every range lies inside the memory,
those of names and values hold texts, and the table is not too large. -/
structure Readable (m : Memory) (name : Span) (table count : UInt32) : Prop where
  name : ∃ text, name.Holds m text
  size : 16 * count.toNat ≤ Number.pow2 31 - 1
  inside : table.toNat + 16 * count.toNat ≤ m.size
  records : ∀ i < count.toNat, (∃ text, (nameSpan m table.toNat i).Holds m text) ∧
    ∃ text, (valueSpan m table.toNat i).Holds m text

/-- What the operands are read as: a name, and one argument for each record, in order. -/
structure ReadAs (m : Memory) (id : UInt32) (name : Span) (table count : UInt32) (title : String)
    (args : List StateChange) : Prop where
  title : name.Holds m title
  size : 16 * count.toNat ≤ Number.pow2 31 - 1
  inside : table.toNat + 16 * count.toNat ≤ m.size
  length : args.length = count.toNat
  arguments : ∀ i a, args[i]? = some a → IsArgument m id table.toNat i a

section

variable {m : Memory} {id : UInt32} {name : Span} {table count : UInt32}

/-- Operands that can be read are read as something. -/
theorem readable_iff :
    Readable m name table count ↔ ∃ title args, ReadAs m id name table count title args := by
  constructor
  · rintro ⟨⟨title, htitle⟩, hsize, hinside, hrecords⟩
    have hargument (i : Fin count.toNat) : ∃ a, IsArgument m id table.toNat i a := by
      obtain ⟨⟨n, hn⟩, v, hv⟩ := hrecords i i.isLt
      exact ⟨⟨id, n, v⟩, rfl, hn, hv⟩
    obtain ⟨argument, hargument⟩ := Classical.axiomOfChoice hargument
    refine ⟨title, List.ofFn argument, htitle, hsize, hinside, List.length_ofFn, fun i a ha => ?_⟩
    obtain ⟨hi, rfl⟩ := List.getElem?_eq_some_iff.mp ha
    rw [List.getElem_ofFn]
    exact hargument ⟨i, _⟩
  · rintro ⟨title, args, h⟩
    refine ⟨⟨title, h.title⟩, h.size, h.inside, fun i hi => ?_⟩
    have ha := h.arguments i _ (List.getElem?_eq_getElem (h.length ▸ hi))
    exact ⟨⟨_, ha.name⟩, _, ha.value⟩

/-- The event of a call tells what its operands are read as. -/
theorem event_beginMethod_iff {e : Event} :
    (GuestReport.beginMethod name table count).event (some m) id = .ok e ↔
      ∃ title args, ReadAs m id name table count title args ∧ e = .beginMethod id title args := by
  unfold GuestReport.event
  dsimp only
  constructor
  · intro h
    split at h
    · cases h
    · rename_i title htitle
      split at h
      · rename_i args hargs
        cases h
        obtain ⟨hsize, hinside, hlength, hrecords⟩ := readArguments_eq_ok_iff.mp hargs
        exact ⟨title, args, ⟨Span.text_eq_ok_iff.mp htitle, hsize, hinside, hlength, hrecords⟩, rfl⟩
      · cases h
  · rintro ⟨title, args, h, rfl⟩
    rw [Span.text_eq_ok_iff.mpr h.title]
    dsimp only
    rw [readArguments_eq_ok_iff.mpr ⟨h.size, h.inside, h.length, h.arguments⟩]

end

/-! ## Tables that are laid out in memory -/

/-- The bytes of a record that names two ranges. -/
def recordBytes (places : Span × Span) : List UInt8 :=
  Wasm.toLittleEndian 4 places.1.start.toNat ++ Wasm.toLittleEndian 4 places.1.length.toNat ++
    Wasm.toLittleEndian 4 places.2.start.toNat ++ Wasm.toLittleEndian 4 places.2.length.toNat

/-- A table of records at `table`, each with the places of the name and the value of a pair. -/
structure LaidOut (m : Memory) (table : Nat) (places : List (Span × Span))
    (pairs : List (String × String)) : Prop where
  table : (List.range' table (places.length * argumentSize)).map m.byte =
    places.flatMap recordBytes
  pairs : List.Forall₂ (fun place pair => place.1.Holds m pair.1 ∧ place.2.Holds m pair.2)
    places pairs

theorem ofLittleEndian_toLittleEndian (count n : Nat) :
    Wasm.ofLittleEndian (Wasm.toLittleEndian count n) = n % Number.pow2 (8 * count) := by
  induction count generalizing n with
  | zero => exact (Nat.mod_one n).symm
  | succ count ih =>
    have hlow : (UInt8.ofNat (n % 256)).toNat = n % 256 := by
      rw [UInt8.toNat_ofNat', Nat.mod_mod]
    have hpow : Number.pow2 (8 * (count + 1)) = 256 * Number.pow2 (8 * count) := by
      rw [Nat.mul_succ, Nat.add_comm]
      exact Nat.pow_add 2 8 (8 * count)
    rw [Wasm.toLittleEndian, Wasm.ofLittleEndian, hlow, ih, hpow, Nat.mod_mul]

theorem wordAt_of_bytes {m : Memory} {a : Nat} {n : UInt32}
    (h : (List.range' a 4).map m.byte = Wasm.toLittleEndian 4 n.toNat) : wordAt m a = n := by
  have hbytes : [m.byte a, m.byte (a + 1), m.byte (a + 2), m.byte (a + 3)] =
      Wasm.toLittleEndian 4 n.toNat := h
  have hlt : n.toNat < Number.pow2 (8 * 4) := n.toNat_lt
  rw [wordAt, hbytes, ofLittleEndian_toLittleEndian, Nat.mod_eq_of_lt hlt, UInt32.ofNat_toNat]

/-- The record with the bytes of two places names them. -/
theorem spans_of_recordBytes {m : Memory} {table : Nat} {places : Span × Span}
    (h : (List.range' table argumentSize).map m.byte = recordBytes places) :
    nameSpan m table 0 = places.1 ∧ valueSpan m table 0 = places.2 := by
  have hsplit : (List.range' table argumentSize).map m.byte =
      (List.range' table 4).map m.byte ++ (List.range' (table + 4) 4).map m.byte ++
        (List.range' (table + 8) 4).map m.byte ++ (List.range' (table + 12) 4).map m.byte := rfl
  rw [hsplit, recordBytes] at h
  obtain ⟨h, h3⟩ := List.append_inj h rfl
  obtain ⟨h, h2⟩ := List.append_inj h rfl
  obtain ⟨h0, h1⟩ := List.append_inj h rfl
  constructor
  · unfold nameSpan
    rw [Nat.mul_zero, Nat.add_zero, wordAt_of_bytes h0, wordAt_of_bytes h1]
  · unfold valueSpan
    rw [Nat.mul_zero, Nat.add_zero, wordAt_of_bytes h2, wordAt_of_bytes h3]

/-- The arguments of a table that is laid out are its pairs. -/
theorem LaidOut.isArgument {m : Memory} {table : Nat} {places : List (Span × Span)}
    {pairs : List (String × String)} (h : LaidOut m table places pairs) (id : UInt32) {i : Nat}
    {pair : String × String} (hpair : pairs[i]? = some pair) :
    IsArgument m id table i ⟨id, pair.1, pair.2⟩ := by
  obtain ⟨htable, hpairs⟩ := h
  induction hpairs generalizing table i with
  | nil => exact nomatch hpair
  | @cons place first places pairs hfirst _ ih =>
    rw [List.length_cons, range_records, List.flatMap_cons] at htable
    obtain ⟨hrecord, hothers⟩ := List.append_inj htable rfl
    cases i with
    | zero =>
      cases hpair
      obtain ⟨hname, hvalue⟩ := spans_of_recordBytes hrecord
      exact ⟨rfl, hname ▸ hfirst.1, hvalue ▸ hfirst.2⟩
    | succ i => exact isArgument_succ.mpr (ih hpair hothers)

/-! ## The call -/

/-- A run whose code ends with a fault is over, and was not aborted. -/
theorem Run.advance_of_fault [Engine] {σ : Type} [TraceSink σ] {h g : Host σ} {r : Running}
    {f : RuntimeFault} (hfault : Guest.advance h r.code = (g, .ended (.fault f)))
    (hcalm : ∀ p, (advance h r).2 ≠ .panicked p) :
    ∃ report, (advance h r).2 = .done ⟨.faulted (.runtime f), some report⟩ ∧
      report.aborted = false := by
  have hfinish : advance h r =
      finish (g.drop r.identity.id) r.identity r.workspace (.faulted (.runtime f)) := by
    unfold advance
    rw [hfault]
    rfl
  rw [hfinish] at hcalm ⊢
  rcases finish_result (g.drop r.identity.id) r.identity r.workspace (.faulted (.runtime f)) with
    ⟨p, -, hp⟩ | ⟨g', hdone⟩
  · exact absurd hp (hcalm p)
  · exact ⟨_, hdone, rfl⟩

namespace Host

/-- Two ways to change a submission are the same if they agree on it. -/
theorem update_congr {σ : Type} {h : Host σ} {k : Key} {s : Submission σ}
    {f g : Submission σ → Submission σ} (hs : h.submission? k = some s) (hfg : f s = g s) :
    h.update k f = h.update k g := by
  have hsubmissions : h.submissions.modify k f = h.submissions.modify k g := by
    refine List.ext_getElem? fun j => ?_
    rw [List.getElem?_modify, List.getElem?_modify]
    by_cases hj : k = j
    · have hj : h.submissions[j]? = some s := hj ▸ hs
      simp [hj, hfg]
    · simp [hj]
  unfold update
  rw [hsubmissions]

/-- A recorder behind an active submission takes the beginning of a method, and nothing else
changes. -/
theorem report_beginMethod {h : Host Recorder} {sid : SubmissionId} {k : Key}
    (hk : h.registered? sid = some k) (hflag : h.isCanceled k = false) (id : UInt32)
    (title : String) (args : List StateChange) :
    h.report sid (.beginMethod id title args) =
      (h.update k fun s => { s with sink := s.sink.push (.method ⟨id, title, args, []⟩) },
        .ok ()) := by
  have hid : h.idOf? k = some sid := by
    simpa using (Option.filter_eq_some_iff.mp hk).2
  obtain ⟨s, hs, -⟩ := Option.map_eq_some_iff.mp hid
  have hunset : s.canceled = false := by simpa [isCanceled, hs] using hflag
  have hwrite (g : Host Recorder) : g.write [] = g := by simp [write]
  have hoffer : (Event.beginMethod id title args).offer s.canceled s.sink =
      ⟨s.sink.push (.method ⟨id, title, args, []⟩), [], .ok true⟩ := by
    rw [hunset]
    rfl
  rw [report_registered hk, withSink_of_submission? hs, hoffer]
  dsimp only
  rw [hwrite]
  exact congrArg (·, _) (update_congr hs rfl)

end Host

namespace Guest

section

variable [Engine] {m : Memory} {next : Engine.Code}

/-- A call for an active submission is a fault of the code if its operands cannot be read; else
the code goes on if the event can be reported. -/
theorem callHook_of_isActive {σ : Type} [TraceSink σ] {h : Host σ} {hook : Hook}
    {operands : List Wasm.Value} {c : GuestCall}
    (hc : GuestCall.ofOperands? hook operands = some c) (hactive : h.isActive c.sid = true) :
    callHook h hook operands (some m) next =
      match c.report.event (some m) c.id with
      | .error e => (h, .ended (.fault (.operand e)))
      | .ok e => ((h.report c.sid e).1, match (h.report c.sid e).2 with
        | .ok _ => .running next
        | .error s => .ended (CallFault.stop s).guestEnd) := by
  unfold callHook Host.call
  rw [hc]
  dsimp only
  rw [hactive, Bool.not_true, Bool.and_false, if_neg Bool.false_ne_true]
  cases c.report.event (some m) c.id with
  | error e => rfl
  | ok e =>
    dsimp only
    obtain ⟨h', s | _⟩ := h.report c.sid e <;> rfl

/-- A call that begins a method goes on just when its operands can be read. -/
theorem callHook_beginMethod (m : Memory) (next : Engine.Code) (sid id : UInt32) (name : Span)
    (table count : UInt32) :
    let operands : List Wasm.Value :=
      [.i32 sid, .i32 id, .i32 name.start, .i32 name.length, .i32 table, .i32 count]
    (Readable m name table count ↔ ∃ title args, ReadAs m id name table count title args) ∧
    (∀ {title args}, ReadAs m id name table count title args →
      (∀ {h : Host Recorder} {k : Key}, h.registered? sid = some k → h.isCanceled k = false →
        callHook h .beginMethod operands (some m) next =
          (h.update k fun s => { s with sink := s.sink.push (.method ⟨id, title, args, []⟩) },
            .running next)) ∧
      ∀ {σ : Type} [TraceSink σ] {h : Host σ}, h.isActive sid = true →
        let reported := h.report sid (.beginMethod id title args)
        (callHook h .beginMethod operands (some m) next).1 = reported.1 ∧
          ((callHook h .beginMethod operands (some m) next).2 = .running next ↔
            reported.2 = .ok ())) ∧
    (¬Readable m name table count → ∃ e, ∀ {σ : Type} [TraceSink σ] {h : Host σ},
      h.isActive sid = true →
        callHook h .beginMethod operands (some m) next = (h, .ended (.fault (.operand e))) ∧
        ∀ r : Running, Engine.resume r.code = .hook .beginMethod operands (some m) next →
          (∀ p, (Run.advance h r).2 ≠ .panicked p) →
          ∃ report, (Run.advance h r).2 =
              .done ⟨.faulted (.runtime (.operand e)), some report⟩ ∧
            report.aborted = false) ∧
    ∀ {title : String} {places : List (Span × Span)} {pairs : List (String × String)},
      name.Holds m title → LaidOut m table.toNat places pairs → pairs.length = count.toNat →
      16 * count.toNat ≤ Number.pow2 31 - 1 → table.toNat + 16 * count.toNat ≤ m.size →
      ReadAs m id name table count title (pairs.map fun pair => ⟨id, pair.1, pair.2⟩) := by
  intro operands
  have hops : GuestCall.ofOperands? .beginMethod operands =
      some ⟨sid, id, .beginMethod name table count⟩ := rfl
  refine ⟨readable_iff, fun hread => ?_, fun hunread => ?_,
    fun htitle hlaid hlength hsize hinside => ?_⟩
  · have hevent := event_beginMethod_iff.mpr ⟨_, _, hread, rfl⟩
    constructor
    · intro h k hk hflag
      have hactive : h.isActive sid = true := by simp [Host.isActive, hk, hflag]
      rw [callHook_of_isActive hops hactive]
      dsimp only
      rw [hevent]
      dsimp only
      rw [Host.report_beginMethod hk hflag]
    · intro σ _ h hactive reported
      rw [callHook_of_isActive hops hactive]
      dsimp only
      rw [hevent]
      refine ⟨rfl, ?_⟩
      change (match reported.2 with
        | .ok _ => _
        | .error s => _) = _ ↔ _
      cases reported.2 with
      | ok => exact ⟨fun _ => rfl, fun _ => rfl⟩
      | error => exact ⟨nofun, nofun⟩
  · cases hevent : (GuestReport.beginMethod name table count).event (some m) id with
    | ok e =>
      obtain ⟨title, args, hread, -⟩ := event_beginMethod_iff.mp hevent
      exact absurd (readable_iff.mpr ⟨title, args, hread⟩) hunread
    | error e =>
      refine ⟨e, fun {σ} _ h hactive => ?_⟩
      have hfault : callHook h .beginMethod operands (some m) next =
          (h, .ended (.fault (.operand e))) := by
        rw [callHook_of_isActive hops hactive]
        dsimp only
        rw [hevent]
      refine ⟨hfault, fun r hhook hcalm => Run.advance_of_fault (g := h) ?_ hcalm⟩
      unfold advance
      rw [hhook]
      exact hfault
  · refine ⟨htitle, hsize, hinside, (List.length_map _).trans hlength, fun i a ha => ?_⟩
    rw [List.getElem?_map] at ha
    obtain ⟨pair, hpair, rfl⟩ := Option.map_eq_some_iff.mp ha
    exact hlaid.isArgument id hpair

end

/-- A table may end where the memory ends, and a name may be a byte of the table itself. With one
more record the table would be outside. -/
theorem callHook_beginMethod_at_end :
    let record : List UInt8 := [255, 255, 0, 0, 1, 0, 0, 0, 0, 0, 1, 0, 0, 0, 0, 0]
    let m : Memory := ⟨1, none, Memory.writeCells (Memory.writeCells {} 0 [102]) 65520 record⟩
    let next : Wasm.Step := .next ⟨{ memories := #[m] }, [], 10⟩
    let h : Host Recorder := { submissions := [{ id := 1, sink := {} }], current := some 0 }
    let call (count : UInt32) := callHook h .beginMethod
      [.i32 1, .i32 7, .i32 0, .i32 1, .i32 65520, .i32 count] (some m) next
    call 1 = (h.update 0 fun s => { s with
        sink := s.sink.push (.method ⟨7, "f", [⟨7, "\x00", ""⟩], []⟩) }, .running next) ∧
      ∃ e, call 2 = (h, .ended (.fault (.operand e))) := by
  intro record m next h call
  have hlaid : LaidOut m 65520 [(⟨65535, 1⟩, ⟨65536, 0⟩)] [("\x00", "")] := by
    refine ⟨by decide +kernel, .cons ⟨⟨by decide +kernel, by decide +kernel⟩,
      ⟨by decide +kernel, by decide +kernel⟩⟩ .nil⟩
  have htitle : Span.Holds ⟨0, 1⟩ m "f" := ⟨by decide +kernel, by decide +kernel⟩
  constructor
  · obtain ⟨-, hopened, -, hlist⟩ := callHook_beginMethod m next 1 7 ⟨0, 1⟩ 65520 1
    have hread := hlist htitle hlaid rfl (by decide +kernel) (by decide +kernel)
    exact (hopened hread).1 (k := 0) rfl rfl
  · obtain ⟨-, -, hrefused, -⟩ := callHook_beginMethod m next 1 7 ⟨0, 1⟩ 65520 2
    obtain ⟨e, he⟩ := hrefused fun h => absurd h.inside (by decide +kernel)
    exact ⟨e, (he (h := h) rfl).1⟩

end Guest

end LiveTrace
