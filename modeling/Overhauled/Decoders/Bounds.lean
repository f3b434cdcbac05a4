/-
  Overhauled.Decoders.Bounds — no decoder of the repository reads outside its frame.

  Offsets and lengths come from the peer; what keeps a read inside the frame is a check
  before it, often several reads away. Each reader gets its text here (`Wire.Access`)
  with the proof that the checks cover the reads: BRK1, WSM1, NXR1 and MED1 by the rules
  alone, field after field.

  BRK2 needs four arguments of its own. The header looks at fixed places and rests on
  the check of the body's size (`headerWhole`). The TLV loop has no count; it ends
  because every turn takes the 8 bytes of a TLV header (`safe_parseFields`). It keeps
  pointers into the body, which are to the bytes of the fields (`fieldData_at`); what is read
  through them later, `p[0]`, `read32(p)` and the copies, rests on the check of the field's
  size before it (`safe_requestOfFields`). And `valid_utf8` runs over a field's bytes with an
  index of its own: `validUtf8Reader` is that loop, it stays below the field's size
  (`safe_validUtf8`), and it answers what the list form `validUtf8` does (`validUtf8_run`).
-/

import Overhauled.Wire.Access
import Overhauled.Broker.Brk2Grammar
import Overhauled.Wasm.Wsm1
import Overhauled.Geo.Nxr1
import Overhauled.Media.Med1

namespace Overhauled.Decoders

open Wire Reader Broker Wasm Geo Media

/-! ## BRK1 -/

def commonHeaderBounded (type : MessageType) (limits : ProtocolLimits) : Bounded 0 (decodeCommonHeader type limits) :=
  .step .size fun _ => .step .check fun _ => .guard <|
    .step (.u32 (by decide)) fun _ => .step (.u16 (by decide)) fun _ => .step (.u8 (by decide)) fun _ =>
    .step (.u8 (by decide)) fun _ => .step .check fun _ => .step .check fun _ => .step .check fun _ => .last .check

def requestBounded (limits : ProtocolLimits) : Bounded 0 (requestReader limits) :=
  .seq (commonHeaderBounded _ _) fun _ => .seq .prefixed fun _ => .seq .prefixed fun _ => .seq .prefixed fun _ =>
    .seq .prefixed fun _ => .guard <| .step (.u8 (by decide)) fun _ => .step (.u32 (by decide)) fun _ =>
    .seq .prefixed fun _ => .step (.atEnd _) fun _ => .step (.rejectSome _) fun _ => .last (.pure _)

def responseBounded (limits : ProtocolLimits) : Bounded 0 (responseReader limits) :=
  .seq (commonHeaderBounded _ _) fun _ => .seq .prefixed fun _ => .guard <|
    .step (.u8 (by decide)) fun _ => .step .check fun _ => .step (.u32 (by decide)) fun _ =>
    .step (.u64 (by decide)) fun _ => .seq .prefixed fun _ => .seq .prefixed fun _ => .step (.atEnd _) fun _ =>
    .last (.pure _)

/-! ## `valid_utf8`, index by index -/

/-- The inner loop: `i` is the offset. -/
def continuationReader : Nat → Nat → Reader (Option Nat)
  | 0, cp => return some cp
  | extra + 1, cp => do
    let d ← u8
    if d.toNat &&& 0xc0 ≠ 0x80 then return none
    else continuationReader extra (cp <<< 6 ||| (d.toNat &&& 0x3f))

/-- The tests on a code point of `extra` continuation bytes: overlong, too large, a surrogate. -/
abbrev Malformed (extra cp : Nat) : Prop :=
  (extra = 1 ∧ cp < 0x80) ∨ (extra = 2 ∧ cp < 0x800) ∨ (extra = 3 ∧ cp < 0x10000) ∨
    cp > 0x10ffff ∨ (cp ≥ 0xd800 ∧ cp ≤ 0xdfff)

/-- `extra > n - i`, the inner loop and the tests. -/
def multibyteReader (cp extra : Nat) : Reader Bool := do
  let left ← remaining
  if extra > left then return false
  else do
    let cp ← continuationReader extra cp
    return match cp with
      | none => false
      | some cp => !decide (Malformed extra cp)

/-- What follows a lead byte above 0x7f. -/
def leadReader : Option (Nat × Nat) → Reader Bool
  | none => return false
  | some (cp, extra) => multibyteReader cp extra

def scalarReader : Reader Bool := do
  let c ← u8
  if c.toNat ≤ 0x7f then return true else leadReader (leadByte c.toNat)

/-- The outer loop, `while (i < n)`. -/
def validUtf8Reader : Nat → Reader Bool
  | 0 => do
    let left ← remaining
    if left = 0 then return true else outOfFuel
  | fuel + 1 => do
    let left ← remaining
    if left = 0 then return true
    else do
      let ok ← scalarReader
      if ok then validUtf8Reader fuel else return false

def continuationBounded : (extra cp : Nat) → Bounded extra (continuationReader extra cp)
  | 0, _ => .last (.pure _)
  | extra + 1, _ => .step (.u8 (by omega)) fun _ => .ite (.last (.pure _)) (continuationBounded extra _)

def multibyteBounded (cp extra : Nat) : Bounded 0 (multibyteReader cp extra) :=
  .roomElse (j := extra) (fun _ h => Nat.le_of_not_lt h) (fun _ => .last (.pure _))
    fun _ => .seq (continuationBounded extra cp) fun _ => .last (.pure _)

def leadBounded : (lead : Option (Nat × Nat)) → Bounded 0 (leadReader lead)
  | none => .last (.pure _)
  | some (cp, extra) => multibyteBounded cp extra

def scalarBounded : Bounded 1 scalarReader :=
  .step (.u8 (by decide)) fun _ => .ite (.last (.pure _)) (leadBounded _)

def validUtf8Code : (fuel : Nat) → Code (validUtf8Reader fuel)
  | 0 => .bind .remaining fun _ => .ite (.pure _) .outOfFuel
  | fuel + 1 =>
    .bind .remaining fun _ =>
      .ite (.pure _) (.bind scalarBounded.code fun _ => .ite (validUtf8Code fuel) (.pure _))

theorem scalarReader_next {w : Bytes} {i o : Nat} {ok : Bool} (h : scalarReader w i = .ok (ok, o)) : i < o ∧ o ≤ w.length := by
  obtain ⟨c, mid, hc, hrest⟩ := bind_ok.mp h
  obtain ⟨hmid, hle, -⟩ := u8_ok.mp hc
  rw [length_be] at hmid
  have hnext : mid ≤ o ∧ o ≤ w.length := by
    split at hrest
    · obtain ⟨-, rfl⟩ := pure_ok.mp hrest
      exact ⟨Nat.le_refl _, hle⟩
    · exact (leadBounded _).next _ _ _ _ hle hrest
  omega

theorem safe_validUtf8 (w : Bytes) (fuel i : Nat) (hi : i ≤ w.length) (hfuel : w.length - i ≤ fuel) :
    (validUtf8Code fuel).Safe w i := by
  induction fuel generalizing i with
  | zero =>
    refine Code.safe_bind (Code.safe_remaining hi) fun left o ho => ?_
    obtain ⟨rfl, rfl⟩ := remaining_ok.mp ho
    refine Code.safe_ite (fun _ => Code.safe_of_nil rfl) fun hleft => ?_
    exact absurd (by omega) hleft
  | succ fuel ih =>
    refine Code.safe_bind (Code.safe_remaining hi) fun left o ho => ?_
    obtain ⟨rfl, rfl⟩ := remaining_ok.mp ho
    refine Code.safe_ite (fun _ => Code.safe_of_nil rfl) fun hleft => ?_
    refine Code.safe_bind (scalarBounded.safe w o (by omega)) fun ok o' ho' => ?_
    have hnext := scalarReader_next ho'
    exact Code.safe_ite (fun _ => ih o' hnext.2 (by omega)) fun _ => Code.safe_of_nil rfl

/-! ### The index form and the list form of `valid_utf8` agree -/

theorem u8_at {w : Bytes} {i : Nat} {c : UInt8} {rest : Bytes} (h : w.drop i = c :: rest) : u8 w i = .ok (c, i + 1) := by
  have hlen := congrArg List.length h
  rw [List.length_drop, List.length_cons] at hlen
  rw [u8_ok, be_one]
  exact ⟨rfl, by omega, by rw [h]; exact ⟨rest, rfl⟩⟩

theorem remaining_at (w : Bytes) (i : Nat) : remaining w i = .ok (w.length - i, i) := rfl

/-- The inner loop reads what its list form takes off the front. -/
theorem continuationReader_eq (w : Bytes) (extra cp i : Nat) (hi : i + extra ≤ w.length) :
    ∃ o, continuationReader extra cp w i = .ok ((continuation extra cp (w.drop i)).map Prod.fst, o) ∧
      ∀ cp' rest, continuation extra cp (w.drop i) = some (cp', rest) → rest = w.drop o := by
  induction extra generalizing cp i with
  | zero =>
    refine ⟨i, rfl, ?_⟩
    rintro cp' rest ⟨rfl, rfl⟩
    rfl
  | succ extra ih =>
    have hdrop : w.drop i = w[i] :: w.drop (i + 1) := List.drop_eq_getElem_cons (by omega)
    rw [continuationReader, bind_of_ok (u8_at hdrop), hdrop, continuation]
    by_cases hd : w[i].toNat &&& 0xc0 ≠ 0x80
    · rw [if_pos hd, if_pos hd]
      exact ⟨i + 1, rfl, fun _ _ h => by cases h⟩
    · rw [if_neg hd, if_neg hd]
      exact ih _ _ (by omega)

/-- One turn answers whether the list form finds a scalar value, and stops where it ends. -/
theorem scalarReader_eq (w : Bytes) (i : Nat) (hi : i < w.length) :
    ∃ o, scalarReader w i = .ok ((nextScalar (w.drop i)).isSome, o) ∧
      ∀ cp rest, nextScalar (w.drop i) = some (cp, rest) → rest = w.drop o := by
  have hdrop : w.drop i = w[i] :: w.drop (i + 1) := List.drop_eq_getElem_cons hi
  rw [scalarReader, bind_of_ok (u8_at hdrop), hdrop, nextScalar]
  by_cases h7 : w[i].toNat ≤ 0x7f
  · rw [if_pos h7, if_pos h7]
    refine ⟨i + 1, rfl, ?_⟩
    rintro cp rest ⟨rfl, rfl⟩
    rfl
  rw [if_neg h7, if_neg h7]
  cases leadByte w[i].toNat with
  | none => exact ⟨i + 1, rfl, fun _ _ h => by cases h⟩
  | some lead =>
    obtain ⟨cp, extra⟩ := lead
    simp only [leadReader, multibyteReader, bind_of_ok (remaining_at w (i + 1)), List.length_drop]
    by_cases hroom : extra > w.length - (i + 1)
    · rw [if_pos hroom, if_pos hroom]
      exact ⟨i + 1, rfl, fun _ _ h => by cases h⟩
    rw [if_neg hroom, if_neg hroom]
    obtain ⟨o, hread, hrest⟩ := continuationReader_eq w extra cp (i + 1) (by omega)
    rw [bind_of_ok hread]
    cases hcont : continuation extra cp (w.drop (i + 1)) with
    | none => exact ⟨o, rfl, fun _ _ h => by cases h⟩
    | some found =>
      obtain ⟨cp', rest⟩ := found
      obtain rfl := hrest _ _ hcont
      show ∃ o', (Except.ok (!decide (Malformed extra cp'), o) : Except Stop (Bool × Nat)) =
          .ok ((if Malformed extra cp' then none else some (cp', w.drop o)).isSome, o') ∧
        ∀ cp rest, (if Malformed extra cp' then none else some (cp', w.drop o)) = some (cp, rest) → rest = w.drop o'
      by_cases hbad : Malformed extra cp'
      · rw [if_pos hbad, decide_eq_true hbad]
        exact ⟨o, rfl, fun _ _ h => by cases h⟩
      · rw [if_neg hbad, decide_eq_false hbad]
        refine ⟨o, rfl, ?_⟩
        rintro cp'' rest ⟨rfl, rfl⟩
        rfl

theorem validUtf8Reader_eq (w : Bytes) (fuel i : Nat) (hi : i ≤ w.length) (hfuel : w.length - i ≤ fuel) :
    ∃ o, validUtf8Reader fuel w i = .ok (validUtf8From fuel (w.drop i), o) := by
  induction fuel generalizing i with
  | zero =>
    have hend : w.drop i = [] := List.drop_eq_nil_iff.mpr (by omega)
    refine ⟨i, ?_⟩
    rw [validUtf8Reader, bind_of_ok (remaining_at w i), if_pos (by omega), hend]
    rfl
  | succ fuel ih =>
    rw [validUtf8Reader, bind_of_ok (remaining_at w i)]
    by_cases hend : w.length - i = 0
    · rw [if_pos hend, List.drop_eq_nil_iff.mpr (by omega)]
      exact ⟨i, rfl⟩
    rw [if_neg hend]
    obtain ⟨o, hread, hrest⟩ := scalarReader_eq w i (by omega)
    have hnext := scalarReader_next hread
    have hdrop : w.drop i = w[i] :: w.drop (i + 1) := List.drop_eq_getElem_cons (by omega)
    rw [bind_of_ok hread, hdrop, validUtf8From, ← hdrop]
    cases hscalar : nextScalar (w.drop i) with
    | none => exact ⟨o, rfl⟩
    | some found =>
      obtain ⟨cp, rest⟩ := found
      obtain rfl := hrest _ _ hscalar
      exact ih o hnext.2 (by omega)

theorem validUtf8_run (w : Bytes) : (validUtf8Reader w.length).run w = .ok (validUtf8 w) := by
  obtain ⟨o, ho⟩ := validUtf8Reader_eq w w.length 0 (Nat.zero_le _) (Nat.le_refl _)
  exact run_ok.mpr ⟨o, ho⟩

/-- What `valid_utf8(p, n)` does, seen from the frame the bytes are in. -/
def utf8Accesses (p : Nat) (w : Bytes) : List Access := ((validUtf8Code w.length).accesses w 0).map (·.shift p)

theorem utf8Accesses_inRange {p size : Nat} {w : Bytes} (h : p + w.length ≤ size) : ∀ a ∈ utf8Accesses p w, a.InRange size := by
  intro a ha
  obtain ⟨b, hb, rfl⟩ := List.mem_map.mp ha
  exact (safe_validUtf8 w w.length 0 (Nat.zero_le _) (Nat.le_refl _) b hb).shift h

/-! ## BRK2 -/

theorem room_for_header {limits : ProtocolLimits} {n : Nat} (h : ¬ (n < brk2HeaderBytes ∨ n > limits.maxFrameBytes)) :
    32 ≤ n := Nat.le_of_not_lt fun hlt => h (Or.inl hlt)

def headerWhole (limits : ProtocolLimits) : Whole (headerReader limits) :=
  .sized (fun _ => room_for_header) fun _ =>
    .step (k := 32) (.peekWord 0 4 (by decide)) fun _ => .step .check fun _ =>
    .step (.peekWord 4 1 (by decide)) fun _ => .step .check fun _ =>
    .step (.peekWord 6 2 (by decide)) fun _ => .step .check fun _ =>
    .step (.peekWord 8 2 (by decide)) fun _ => .step .check fun _ =>
    .step (.peekWord 10 2 (by decide)) fun _ => .step .check fun _ =>
    .step (.peekWord 26 2 (by decide)) fun _ => .step .check fun _ =>
    .step (.peekWord 28 4 (by decide)) fun _ => .step (.checkRest brk2HeaderBytes (by decide)) fun _ =>
    .step (.peekWord 20 4 (by decide)) fun _ => .step (.peekWord 24 2 (by decide)) fun _ => .step .check fun _ =>
    .step (.peekWord 12 8 (by decide)) fun _ => .last (.pure _)

def parseFieldBounded (fields : List FieldView) : Bounded 0 (parseField fields) :=
  .room (j := 8) (fun _ h => Nat.le_of_not_lt h) fun _ =>
    .step (.u16 (by decide)) fun _ => .step (.u8 (by decide)) fun _ => .step (.u8 (by decide)) fun _ =>
    .step (.u32 (by decide)) fun len => .step .check fun _ => .step .check fun _ =>
    .room (j := len.toNat) (fun _ h => Nat.le_of_not_lt h) fun _ =>
    .step (.skip _ (Nat.le_refl _)) fun _ => .step .check fun _ => .last (.pure _)

def parseFieldsCode : (fuel : Nat) → (fields : List FieldView) → Code (parseFields fuel fields)
  | 0, _ => .bind .remaining fun _ => .ite (.pure _) .outOfFuel
  | fuel + 1, fields =>
    .bind .remaining fun _ =>
      .ite (.pure _) (.bind (parseFieldBounded fields).code fun f => parseFieldsCode fuel (fields ++ [f]))

/-! ### The reads through the fields' pointers -/

/-- `find(fs, id)->data`, for fields that stand in the body from `pos` on. -/
def fieldData : Nat → List FieldView → UInt16 → Nat
  | pos, [], _ => pos
  | pos, f :: fs, id => if f.id == id then pos + 8 else fieldData (pos + 8 + f.value.length) fs id

/-- `valid_utf8` over the field, then the copy of it. -/
def getStringCode (p : Nat) (fs : List FieldView) (id : UInt16) : Code (getString fs id) :=
  .option (find fs id) (fun h => by rw [getString, h]) (fun _ h => by rw [getString, h]) (.reject _) fun f =>
    .bind .check fun _ => .via (utf8Accesses p f.value) <| .bind .check fun _ =>
    .via [.read p f.value.length] <| .bind .check fun _ => .pure _

/-- Only the pointer is handed on. -/
def getFixedCode (fs : List FieldView) (id : UInt16) (type : UInt8) (n : Nat) : Code (getFixed fs id type n) :=
  .option (find fs id) (fun h => by rw [getFixed, h]) (fun _ h => by rw [getFixed, h]) (.reject _) fun _ =>
    .bind .check fun _ => .pure _

def checkOptionalCode (fs : List FieldView) (id : UInt16) (type : UInt8) (n : Nat) (msg : Bytes) :
    Code (checkOptional fs id type n msg) :=
  .option (find fs id) (fun h => by rw [checkOptional, h]) (fun _ h => by rw [checkOptional, h]) (.pure ()) fun _ => .check

theorem getDevicePreference_some {fs : List FieldView} {f : FieldView} (h : find fs 10 = some f) :
    getDevicePreference fs = (do
      rejectIf (f.type ≠ wtUtf8) (ascii "invalid BRK2 device_preference type")
      rejectIf (devicePreferences.contains f.value = false) (ascii "unknown BRK2 device_preference")
      return f.value) := by
  have hmem : f.value ∉ devicePreferences ↔ devicePreferences.contains f.value = false := by simp
  rw [← rejectIf_congr hmem, getDevicePreference, h]

def getDevicePreferenceCode (p : Nat) (fs : List FieldView) : Code (getDevicePreference fs) :=
  .option (find fs 10) (fun h => by rw [getDevicePreference, h]) (fun _ h => getDevicePreference_some h) (.pure [])
    fun f => .bind .check fun _ => .via [.read p f.value.length] <| .bind .check fun _ => .pure _

/-- `p[0]` of field 5, `read32(p)` of field 6, the copy of field 7 once its size is checked, and
    what the strings' lookups read. -/
def requestOfFieldsCode (limits : ProtocolLimits) (pos : Nat) (fs : List FieldView) : Code (requestOfFields limits fs) :=
  .bind .check fun _ => .bind (getStringCode (fieldData pos fs 1) fs 1) fun _ =>
    .bind (getStringCode (fieldData pos fs 2) fs 2) fun _ => .bind (getStringCode (fieldData pos fs 3) fs 3) fun _ =>
    .bind (getStringCode (fieldData pos fs 4) fs 4) fun _ => .bind .check fun _ =>
    .bind (getFixedCode fs 5 _ _) fun _ => .via [.read (fieldData pos fs 5) 1] <|
    .bind (getFixedCode fs 6 _ _) fun _ => .via [.read (fieldData pos fs 6) 4] <|
    .bind (getFixedCode fs 7 _ _) fun payload => .bind .check fun _ => .via [.read (fieldData pos fs 7) payload.length] <|
    .bind (checkOptionalCode fs 8 _ _ _) fun _ => .bind (checkOptionalCode fs 9 _ _ _) fun _ =>
    .bind (getDevicePreferenceCode (fieldData pos fs 10) fs) fun _ =>
    .bind .check fun _ => .bind .size fun _ => .bind .check fun _ => .pure _

def fieldsCode (limits : ProtocolLimits) : Code (fieldsReader limits) :=
  .bind .size fun n => .bind (.seek brk2HeaderBytes) fun _ => .bind (parseFieldsCode n []) fun fs =>
    requestOfFieldsCode limits brk2HeaderBytes fs

/-- The pointer is to the field's bytes. -/
theorem fieldData_at {body : Bytes} {fs : List FieldView} {pos pos' : Nat} (h : At body pos (serialise fs) pos') {id : UInt16}
    {f : FieldView} (hf : find fs id = some f) :
    At body (fieldData pos fs id) f.value (fieldData pos fs id + f.value.length) := by
  induction fs generalizing pos with
  | nil => cases hf
  | cons g fs ih =>
    rw [serialise, List.flatMap_cons] at h
    obtain ⟨o, hg, hrest⟩ := at_append.mp h
    have ho := hg.1
    rw [length_tlvBytes] at ho
    unfold fieldData
    cases hid : g.id == id with
    | true =>
      simp only [find, List.find?_cons, hid, Option.some.injEq] at hf
      subst hf
      -- the value is what follows the eight bytes of the TLV's header
      have hsplit : tlvBytes g = (be 2 g.id.toNat ++ [g.type] ++ [g.flags] ++ be 4 g.value.length) ++ g.value := by
        simp [tlvBytes, pre]
      rw [hsplit] at hg
      obtain ⟨mid, hhead, hvalue⟩ := at_append.mp hg
      have hmid : mid = pos + 8 := by
        rw [hhead.1]
        simp only [List.length_append, length_be, List.length_singleton]
      rw [hmid] at hvalue
      rw [if_pos rfl, ← hvalue.1]
      exact hvalue
    | false =>
      simp only [find, List.find?_cons, hid] at hf
      rw [if_neg Bool.false_ne_true, Nat.add_assoc, ← ho]
      exact ih hrest hf

section
variable {body : Bytes} {fs : List FieldView} {p off : Nat}

theorem safe_getString {id : UInt16} (hp : ∀ f, find fs id = some f → p + f.value.length ≤ body.length) :
    (getStringCode p fs id).Safe body off := by
  refine Code.safe_option (fun _ => Code.safe_of_nil rfl) fun f hf => ?_
  refine Code.safe_bind (Code.safe_of_nil rfl) fun _ _ _ => Code.safe_via (utf8Accesses_inRange (hp f hf)) ?_
  refine Code.safe_bind (Code.safe_of_nil rfl) fun _ _ _ => Code.safe_via_read (hp f hf) ?_
  exact Code.safe_bind (Code.safe_of_nil rfl) fun _ _ _ => Code.safe_of_nil rfl

theorem safe_getFixed {id : UInt16} {type : UInt8} {n : Nat} : (getFixedCode fs id type n).Safe body off := by
  refine Code.safe_option (fun _ => Code.safe_of_nil rfl) fun f _ => ?_
  exact Code.safe_bind (Code.safe_of_nil rfl) fun _ _ _ => Code.safe_of_nil rfl

theorem safe_checkOptional {id : UInt16} {type : UInt8} {n : Nat} {msg : Bytes} :
    (checkOptionalCode fs id type n msg).Safe body off :=
  Code.safe_option (fun _ => Code.safe_of_nil rfl) fun _ _ => Code.safe_of_nil rfl

theorem safe_getDevicePreference (hp : ∀ f, find fs 10 = some f → p + f.value.length ≤ body.length) :
    (getDevicePreferenceCode p fs).Safe body off := by
  refine Code.safe_option (fun _ => Code.safe_of_nil rfl) fun f hf => ?_
  refine Code.safe_bind (Code.safe_of_nil rfl) fun _ _ _ => Code.safe_via_read (hp f hf) ?_
  exact Code.safe_bind (Code.safe_of_nil rfl) fun _ _ _ => Code.safe_of_nil rfl

/-- After `get_fixed`, the field has the size that was asked for. -/
theorem room_of_getFixed {id : UInt16} {type : UInt8} {n off' : Nat} {v : Bytes} (hn : (fs.map (·.id)).Nodup)
    (hp : ∀ f, find fs id = some f → p + f.value.length ≤ body.length) (h : getFixed fs id type n body off = .ok (v, off')) :
    p + v.length ≤ body.length ∧ v.length = n := by
  obtain ⟨⟨hhas, hlength⟩, -⟩ := (getFixed_ok hn).mp h
  obtain ⟨f, hf, -, rfl⟩ := (has_iff hn).mp hhas
  exact ⟨hp f hf, hlength⟩

/-- Every read through a pointer is behind the check of the field's size. -/
theorem safe_requestOfFields (limits : ProtocolLimits) {pos : Nat} (hn : (fs.map (·.id)).Nodup)
    (hdata : ∀ id f, find fs id = some f → fieldData pos fs id + f.value.length ≤ body.length) :
    (requestOfFieldsCode limits pos fs).Safe body off := by
  refine Code.safe_bind (Code.safe_of_nil rfl) fun _ _ _ => ?_
  refine Code.safe_bind (safe_getString (hdata 1)) fun _ _ _ => ?_
  refine Code.safe_bind (safe_getString (hdata 2)) fun _ _ _ => ?_
  refine Code.safe_bind (safe_getString (hdata 3)) fun _ _ _ => ?_
  refine Code.safe_bind (safe_getString (hdata 4)) fun _ _ _ => ?_
  refine Code.safe_bind (Code.safe_of_nil rfl) fun _ _ _ => ?_
  refine Code.safe_bind safe_getFixed fun priority _ hpriority => ?_
  obtain ⟨hroom, hone⟩ := room_of_getFixed hn (hdata 5) hpriority
  refine Code.safe_via_read (hone ▸ hroom) ?_
  refine Code.safe_bind safe_getFixed fun timeout _ htimeout => ?_
  obtain ⟨hroom, hfour⟩ := room_of_getFixed hn (hdata 6) htimeout
  refine Code.safe_via_read (hfour ▸ hroom) ?_
  refine Code.safe_bind safe_getFixed fun payload _ hpayload => ?_
  refine Code.safe_bind (Code.safe_of_nil rfl) fun _ _ _ => ?_
  refine Code.safe_via_read (room_of_getFixed hn (hdata 7) hpayload).1 ?_
  refine Code.safe_bind safe_checkOptional fun _ _ _ => Code.safe_bind safe_checkOptional fun _ _ _ => ?_
  refine Code.safe_bind (safe_getDevicePreference (hdata 10)) fun _ _ _ => ?_
  refine Code.safe_bind (Code.safe_of_nil rfl) fun _ _ _ => Code.safe_bind (Code.safe_of_nil rfl) fun _ _ _ => ?_
  exact Code.safe_bind (Code.safe_of_nil rfl) fun _ _ _ => Code.safe_of_nil rfl

end

/-- Every turn of the loop takes at least the 8 bytes of a TLV header, so a bound no
    smaller than the bytes left does not run out. -/
theorem safe_parseFields (body : Bytes) (fuel : Nat) (fields : List FieldView) (pos : Nat) (hpos : pos ≤ body.length)
    (hfuel : body.length - pos ≤ fuel) : (parseFieldsCode fuel fields).Safe body pos := by
  induction fuel generalizing fields pos with
  | zero =>
    refine Code.safe_bind (Code.safe_remaining hpos) fun left o ho => ?_
    obtain ⟨rfl, rfl⟩ := remaining_ok.mp ho
    refine Code.safe_ite (fun _ => Code.safe_of_nil rfl) fun hleft => ?_
    exact absurd (by omega) hleft
  | succ fuel ih =>
    refine Code.safe_bind (Code.safe_remaining hpos) fun left o ho => ?_
    obtain ⟨rfl, rfl⟩ := remaining_ok.mp ho
    refine Code.safe_ite (fun _ => Code.safe_of_nil rfl) fun _ => ?_
    refine Code.safe_bind ((parseFieldBounded fields).safe _ _ hpos) fun f o' hf => ?_
    obtain ⟨-, -, -, hat⟩ := parseField_ok.mp hf
    have hlen := hat.1
    rw [length_tlvBytes] at hlen
    exact ih _ _ hat.le (by omega)

theorem safe_fields (limits : ProtocolLimits) (body : Bytes) (h : brk2HeaderBytes ≤ body.length) :
    (fieldsCode limits).Safe body 0 := by
  refine Code.safe_bind (Code.safe_of_nil rfl) fun n o ho => ?_
  obtain ⟨rfl, rfl⟩ := size_ok.mp ho
  refine Code.safe_bind (Code.safe_of_nil rfl) fun _ o ho => ?_
  obtain rfl := seek_ok.mp ho
  refine Code.safe_bind (safe_parseFields body _ _ _ h (by omega)) fun fs o ho => ?_
  obtain ⟨new, hnew, -, hnodup, -, hat, -⟩ := (parseFields_ok h (by omega)).mp ho
  rw [List.nil_append] at hnew
  subst hnew
  exact safe_requestOfFields limits hnodup fun id f hf => (fieldData_at hat hf).le

/-- What `decode_brk2_request_body` does: the header, and if it is accepted the fields. -/
def brk2Accesses (body : Bytes) (limits : ProtocolLimits) : List Access :=
  (headerWhole limits).code.accesses body 0 ++
    match (headerReader limits).run body with
    | .ok _ => (fieldsCode limits).accesses body 0
    | .error _ => []

theorem brk2_in_range (body : Bytes) (limits : ProtocolLimits) : ∀ a ∈ brk2Accesses body limits, a.InRange body.length := by
  intro a ha
  rcases List.mem_append.mp ha with ha | ha
  · exact (headerWhole limits).safe body a ha
  · split at ha
    · rename_i requestId hid
      exact safe_fields limits body (headerReader_ok.mp hid).1.1 a ha
    · cases ha

theorem brk2_not_fault (body : Bytes) (requestId : UInt64) (limits : ProtocolLimits) :
    (decodeBrk2RequestBody body requestId limits).2 ≠ .error .fault := by
  unfold decodeBrk2RequestBody
  split
  · rename_i e he
    rintro ⟨rfl⟩
    exact ((headerWhole limits).safe body).run_ne_fault he
  · rename_i requestId hid
    exact (safe_fields limits body (headerReader_ok.mp hid).1.1).run_ne_fault

/-- A field's bytes are where its pointer is. -/
theorem value_at {body : Bytes} {fuel : Nat} {fs : List FieldView} {pos pos' : Nat} (hpos : pos ≤ body.length)
    (hfuel : body.length - pos ≤ fuel) (h : parseFields fuel [] body pos = .ok (fs, pos')) {f : FieldView} (hf : f ∈ fs) :
    At body (fieldData pos fs f.id) f.value (fieldData pos fs f.id + f.value.length) := by
  obtain ⟨new, hnew, -, hnodup, -, hat, -⟩ := (parseFields_ok hpos hfuel).mp h
  rw [List.nil_append] at hnew
  subst hnew
  exact fieldData_at hat ((find_some hnodup).mpr ⟨hf, rfl⟩)

/-! ## WSM1 -/

def headerBounded (type : WasmMessageType) (limits : WasmLimits) : Bounded 0 (decodeHeader type limits) :=
  .step .size fun _ => .step .check fun _ => .guard <|
    .step (.guarded (.u32 (by decide))) fun _ => .step .check fun _ => .step (.guarded (.u16 (by decide))) fun _ =>
    .step .check fun _ => .step (.u8 (by decide)) fun _ => .step .check fun _ => .last (.u8 (by decide))

def byteBounded {k : Nat} : Bounded k readByte := .guard (.last (.u8 (by decide)))
def be16Bounded {k : Nat} : Bounded k readBe16 := .guard (.last (.u16 (by decide)))
def be32Bounded {k : Nat} : Bounded k readBe32 := .guard (.last (.u32 (by decide)))
def be64Bounded {k : Nat} : Bounded k readBe64 := .guard (.last (.u64 (by decide)))

def descriptorBounded (limits : WasmLimits) : Bounded 0 (readBufferDescriptor limits) :=
  .seq be32Bounded fun _ => .seq be32Bounded fun _ => .seq be64Bounded fun _ => .seq be64Bounded fun _ =>
    .seq .prefixed fun _ => .last (.pure _)

def descriptorsBounded (limits : WasmLimits) : Bounded 0 (readBufferDescriptors limits) :=
  .seq be16Bounded fun _ => .step .check fun _ => .many (descriptorBounded limits) _

def taskRequestBounded (limits : WasmLimits) : Bounded 0 (taskRequestReader limits) :=
  .seq (headerBounded _ _) fun _ => .seq .prefixed fun _ => .seq .prefixed fun _ => .seq .prefixed fun _ =>
    .seq .prefixed fun _ => .seq .prefixed fun _ => .seq byteBounded fun _ => .seq be64Bounded fun _ =>
    .seq (descriptorsBounded limits) fun _ => .seq .prefixed fun _ => .step (.atEnd _) fun _ => .step .check fun _ =>
    .last (.pure _)

def taskResponseBounded (limits : WasmLimits) : Bounded 0 (taskResponseReader limits) :=
  .seq (headerBounded _ _) fun _ => .seq be16Bounded fun _ => .seq .prefixed fun _ => .seq be32Bounded fun _ =>
    .seq be64Bounded fun _ => .seq .prefixed fun _ => .seq (descriptorsBounded limits) fun _ =>
    .seq .prefixed fun _ => .step (.atEnd _) fun _ => .last (.pure _)

def lifecycleRequestBounded (limits : WasmLimits) : Bounded 0 (lifecycleRequestReader limits) :=
  .seq (headerBounded _ _) fun _ => .seq .prefixed fun _ => .seq .prefixed fun _ => .seq .prefixed fun _ =>
    .seq .prefixed fun _ => .seq be32Bounded fun _ => .seq be32Bounded fun _ => .seq .prefixed fun _ =>
    .seq .prefixed fun _ => .step (.atEnd _) fun _ => .step .check fun _ => .last (.pure _)

def lifecycleResponseBounded (limits : WasmLimits) : Bounded 0 (lifecycleResponseReader limits) :=
  .seq (headerBounded _ _) fun _ => .seq byteBounded fun _ => .seq be16Bounded fun _ => .seq byteBounded fun _ =>
    .seq .prefixed fun _ => .seq .prefixed fun _ => .seq .prefixed fun _ => .seq .prefixed fun _ =>
    .seq be32Bounded fun _ => .seq be32Bounded fun _ => .seq .prefixed fun _ => .seq .prefixed fun _ =>
    .step (.atEnd _) fun _ => .last (.pure _)

/-! ## NXR1 and MED1 -/

def doubleBounded (host : Host) : Bounded 0 (readDouble host) :=
  .seq (.block 8 _) fun _ => .step .check fun _ => .last (.pure _)

def nxr1Bounded (host : Host) (maxPayloadBytes : Nat) : Bounded 0 (nxr1Reader host maxPayloadBytes) :=
  .guard <| .step (.u32 (by decide)) fun _ => .step (.u16 (by decide)) fun _ => .step .check fun _ =>
    .step .check fun _ => .seq (.many (doubleBounded host) 9) fun _ => .seq .prefixed fun _ =>
    .step (.atEnd _) fun _ => .last (.pure _)

def mediaBounded (maxPayloadBytes maxStringBytes : Nat) : Bounded 0 (mediaReader maxPayloadBytes maxStringBytes) :=
  .seq (.word 4 _) fun _ => .seq (.word 2 _) fun _ => .step .check fun _ => .step .check fun _ =>
    .seq (.word 1 _) fun _ => .step .check fun _ => .seq .prefixed fun _ => .seq .prefixed fun _ =>
    .seq (.word 8 _) fun _ => .seq (.word 8 _) fun _ => .seq (.word 4 _) fun _ => .seq (.word 4 _) fun _ =>
    .seq (.word 4 _) fun _ => .seq (.word 4 _) fun _ => .seq (.word 1 _) fun _ => .step .check fun _ =>
    .seq .prefixed fun _ => .step (.atEnd _) fun _ => .last (.pure _)

/-! ## Every decoder -/

/-- On every frame and under all limits each decoder reads only bytes of the frame, no
    sum or difference it computes leaves the range of sizes, and it ends, in an answer
    or in a rejection. The pointers a BRK2 decoder keeps are to the bytes of its fields, and
    `valid_utf8`, which is run on them, does the same and answers `validUtf8`. -/
theorem decoders_in_range (frame : Bytes) (limits : ProtocolLimits) (wasmLimits : WasmLimits) (host : Host)
    (maxPayloadBytes maxStringBytes : Nat) (requestId : UInt64) :
    ((requestBounded limits).code.Safe frame 0 ∧ decodeRequestFrame frame limits ≠ .error .fault) ∧
      ((responseBounded limits).code.Safe frame 0 ∧ decodeResponseFrame frame limits ≠ .error .fault) ∧
      ((∀ a ∈ brk2Accesses frame limits, a.InRange frame.length) ∧
        (decodeBrk2RequestBody frame requestId limits).2 ≠ .error .fault) ∧
      (∀ fs o, brk2HeaderBytes ≤ frame.length → parseFields frame.length [] frame brk2HeaderBytes = .ok (fs, o) →
        ∀ f ∈ fs, At frame (fieldData brk2HeaderBytes fs f.id) f.value
          (fieldData brk2HeaderBytes fs f.id + f.value.length)) ∧
      (∀ w : Bytes, (validUtf8Code w.length).Safe w 0 ∧ (validUtf8Reader w.length).run w = .ok (validUtf8 w)) ∧
      ((taskRequestBounded wasmLimits).code.Safe frame 0 ∧ decodeWasmTaskRequest frame wasmLimits ≠ .error .fault) ∧
      ((taskResponseBounded wasmLimits).code.Safe frame 0 ∧ decodeWasmTaskResponse frame wasmLimits ≠ .error .fault) ∧
      ((lifecycleRequestBounded wasmLimits).code.Safe frame 0 ∧
        decodeWasmLifecycleRequest frame wasmLimits ≠ .error .fault) ∧
      ((lifecycleResponseBounded wasmLimits).code.Safe frame 0 ∧
        decodeWasmLifecycleResponse frame wasmLimits ≠ .error .fault) ∧
      ((mediaBounded maxPayloadBytes maxStringBytes).code.Safe frame 0 ∧
        decodeMediaStreamFrame frame maxPayloadBytes maxStringBytes ≠ .error .fault) ∧
      ((nxr1Bounded host maxPayloadBytes).code.Safe frame 0 ∧
        decodeNxr1Frame host frame maxPayloadBytes ≠ .error .fault) := by
  refine ⟨(requestBounded limits).in_range frame, (responseBounded limits).in_range frame,
    ⟨brk2_in_range frame limits, brk2_not_fault frame requestId limits⟩, ?_, ?_,
    (taskRequestBounded wasmLimits).in_range frame, (taskResponseBounded wasmLimits).in_range frame,
    (lifecycleRequestBounded wasmLimits).in_range frame, (lifecycleResponseBounded wasmLimits).in_range frame,
    (mediaBounded maxPayloadBytes maxStringBytes).in_range frame, (nxr1Bounded host maxPayloadBytes).in_range frame⟩
  · intro fs o h32 hfs f hf
    exact value_at h32 (by omega) hfs hf
  · intro w
    exact ⟨safe_validUtf8 w w.length 0 (Nat.zero_le _) (Nat.le_refl _), validUtf8_run w⟩

/-- A frame of three bytes is turned away by the first `take`, before any byte is read. -/
example : (requestBounded {}).code.accesses [0x42, 0x52, 0x4b] 0 = [.sub 3 0] := by decide

end Overhauled.Decoders
