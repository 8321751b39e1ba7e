import Allotment.Config.Json
import Allotment.Config.Variables
import Allotment.Proofs.Parsing
import Mathlib.Data.List.Nodup

/-!
# Two ways to load a configuration

An assignment gives values to some of the fields. It can be held by variables or be written as an
object, and both ways of loading it lead to the same configuration or the same fault.
-/

namespace Allotment

/-! ### Decimal texts -/

namespace Text

theorem readDigits_append (bound n : Nat) (ds es : List Char) :
    readDigits bound n (ds ++ es) = (readDigits bound n ds).bind (readDigits bound · es) := by
  induction ds generalizing n with
  | nil => rfl
  | cons d ds ih =>
    simp only [List.cons_append, readDigits, ih]
    split
    · split <;> rfl
    · rfl

theorem readDigits_digit {bound n d : Nat} (digit : d < 10) (below : n * 10 + d < bound) :
    readDigits bound n [d.digitChar] = .ok (n * 10 + d) := by
  have numeral : d.digitChar.isDigit = true := by simp [Nat.isDigit_digitChar, digit]
  have value : d.digitChar.toNat - '0'.toNat = d := Nat.toNat_digitChar_sub_48_of_lt_ten digit
  rw [readDigits, if_pos numeral]
  simp only [value]
  rw [if_pos below]
  rfl

theorem readDigits_toDigits {bound n : Nat} (below : n < bound) :
    readDigits bound 0 (Nat.toDigits 10 n) = .ok n := by
  induction n using Nat.strongRecOn with
  | _ n ih =>
    rw [Nat.toDigits_eq_if (by decide)]
    split
    · rename_i small
      have read := readDigits_digit (n := 0) small (by omega : 0 * 10 + n < bound)
      rwa [Nat.zero_mul, Nat.zero_add] at read
    · rename_i large
      have parts : n / 10 * 10 + n % 10 = n := by omega
      rw [readDigits_append, ih (n / 10) (by omega) (by omega)]
      show readDigits bound (n / 10) [(n % 10).digitChar] = .ok n
      rw [readDigits_digit (Nat.mod_lt n (by decide)) (by omega), parts]

theorem readNatural_unsigned {bound : Nat} {s : String} {c : Char} {cs : List Char}
    (chars : s.toList = c :: cs) (unsigned : c ≠ '+') :
    readNatural bound s = readDigits bound 0 (c :: cs) := by
  unfold readNatural
  rw [chars]
  split
  · contradiction
  · rename_i e
    exact absurd (List.cons.inj e).1 unsigned
  · rename_i e
    exact absurd (List.cons.inj e).1 unsigned
  · rfl

/-- A machine word is read from its decimal text. -/
theorem readWord_toString (w : UInt64) : readWord (toString w.toNat) = .ok w := by
  obtain ⟨c, cs, same⟩ :=
    List.exists_cons_of_ne_nil (Nat.toDigits_ne_nil (n := w.toNat) (b := 10))
  have chars : (toString w.toNat).toList = c :: cs := by
    rw [Nat.toString_eq_repr, Nat.toList_repr, same]
  have digit : c.isDigit = true := Json.isDigit_of_mem_digits (n := w.toNat) (by simp [same])
  have unsigned : c ≠ '+' := by
    rintro rfl
    cases digit
  have read := readDigits_toDigits w.toNat_lt
  rw [same] at read
  rw [readWord, readNatural_unsigned chars unsigned]
  show (readDigits (2 ^ 64) 0 (c :: cs)).map UInt64.ofNat = _
  rw [read]
  exact congrArg Except.ok w.ofNat_toNat

end Text

namespace Config

/-! ### Assignments -/

namespace Setting

def field : Setting → Variable
  | threadName _ => .threadName
  | threadStackSize _ => .threadStackSize
  | shutdownTimeoutMs _ => .shutdownTimeoutMs
  | snapshotTimeoutMs _ => .snapshotTimeoutMs
  | auditCapacity _ => .auditCapacity
  | strictRelease _ => .strictRelease

/-- What the variable of the field holds: a name as it is, a number in decimal. -/
def text : Setting → String
  | threadName name => name
  | threadStackSize w => toString w.toNat
  | shutdownTimeoutMs w => toString w.toNat
  | snapshotTimeoutMs w => toString w.toNat
  | auditCapacity w => toString w.toNat
  | strictRelease strict => if strict then "true" else "false"

/-- What stands for the value in an object. -/
def json : Setting → Json
  | threadName name => .text name
  | threadStackSize w => .nat w.toNat
  | shutdownTimeoutMs w => .nat w.toNat
  | snapshotTimeoutMs w => .nat w.toNat
  | auditCapacity w => .nat w.toNat
  | strictRelease strict => .bool strict

end Setting

/-- The name of the field in an object. -/
def Variable.key : Variable → String
  | threadName => "thread_name"
  | threadStackSize => "thread_stack_size"
  | shutdownTimeoutMs => "shutdown_timeout_ms"
  | snapshotTimeoutMs => "snapshot_timeout_ms"
  | auditCapacity => "audit_capacity"
  | strictRelease => "strict_release"

theorem Variable.key_inj {v w : Variable} : v.key = w.key ↔ v = w := by
  cases v <;> cases w <;> decide

def get (c : Config) : Variable → Setting
  | .threadName => .threadName c.threadName
  | .threadStackSize => .threadStackSize c.threadStackSize
  | .shutdownTimeoutMs => .shutdownTimeoutMs c.shutdownTimeoutMs
  | .snapshotTimeoutMs => .snapshotTimeoutMs c.snapshotTimeoutMs
  | .auditCapacity => .auditCapacity c.auditCapacity
  | .strictRelease => .strictRelease c.strictRelease

theorem get_set (c : Config) (s : Setting) (v : Variable) :
    (c.set s).get v = if s.field = v then s else c.get v := by
  cases s <;> cases v <;> rfl

theorem ext_get {c d : Config} (same : ∀ v, c.get v = d.get v) : c = d := by
  obtain ⟨name, stack, shutdown, snapshot, audit, strict⟩ := c
  cases same .threadName
  cases same .threadStackSize
  cases same .shutdownTimeoutMs
  cases same .snapshotTimeoutMs
  cases same .auditCapacity
  cases same .strictRelease
  rfl

/-- Values for some of the fields, each of which has one value. -/
structure Assignment where
  settings : List Setting
  once : (settings.map Setting.field).Nodup

namespace Assignment

def get? (a : Assignment) (v : Variable) : Option Setting := a.settings.find? (·.field = v)

/-- The configuration with the assigned values in place of its own. -/
def override (a : Assignment) (c : Config) : Config := a.settings.foldl set c

/-- The object of the assigned fields, in the order of the assignment. -/
def toJson (a : Assignment) : Json := .object (a.settings.map fun s => (s.field.key, s.json))

def text (a : Assignment) : String := a.toJson.compact

/-- Of the variables of the configuration, those of the assigned fields are set, to the assigned
values. -/
def HeldBy (a : Assignment) (lookup : String → Option String) : Prop :=
  ∀ v : Variable, lookup v.name = (a.get? v).map Setting.text

theorem mem_of_get? {a : Assignment} {v : Variable} {s : Setting} (found : a.get? v = some s) :
    s ∈ a.settings ∧ s.field = v :=
  ⟨List.mem_of_find?_eq_some found, by simpa using List.find?_some found⟩

theorem get?_eq_some_iff {a : Assignment} {v : Variable} {s : Setting} :
    a.get? v = some s ↔ s ∈ a.settings ∧ s.field = v := by
  refine ⟨mem_of_get?, ?_⟩
  rintro ⟨hs, rfl⟩
  cases found : a.get? s.field with
  | none => simpa using List.find?_eq_none.mp found s hs
  | some t =>
    obtain ⟨ht, same⟩ := mem_of_get? found
    rw [List.inj_on_of_nodup_map a.once ht hs same]

theorem get_foldl_set {ss : List Setting} (once : (ss.map Setting.field).Nodup) (c : Config)
    (v : Variable) : (ss.foldl set c).get v = (ss.find? (·.field = v)).getD (c.get v) := by
  induction ss generalizing c with
  | nil => rfl
  | cons x ss ih =>
    obtain ⟨fresh, once⟩ := List.nodup_cons.mp once
    rw [List.foldl_cons, ih once, get_set, List.find?_cons]
    by_cases same : x.field = v
    · subst same
      have alone : ss.find? (·.field = x.field) = none := by
        refine List.find?_eq_none.mpr fun y hy => ?_
        simpa using fun e => fresh (List.mem_map.mpr ⟨y, hy, e⟩)
      simp [alone]
    · simp [same]

theorem get_override (a : Assignment) (c : Config) (v : Variable) :
    (a.override c).get v = (a.get? v).getD (c.get v) := get_foldl_set a.once c v

theorem get?_perm {a b : Assignment} (reordered : b.settings.Perm a.settings) (v : Variable) :
    b.get? v = a.get? v := by
  ext s
  rw [get?_eq_some_iff, get?_eq_some_iff, reordered.mem_iff]

/-- In whatever order the fields are assigned, the configuration is the same. -/
theorem override_perm {a b : Assignment} (reordered : b.settings.Perm a.settings) (c : Config) :
    b.override c = a.override c := ext_get fun v => by rw [get_override, get_override, get?_perm reordered]

end Assignment

/-! ### Loading from variables -/

theorem readWord_toString (w : UInt64) : readWord (toString w.toNat) = .ok w := by
  rw [readWord, Text.readWord_toString]
  rfl

theorem Variable.read_text (s : Setting) : s.field.read s.text = .ok s := by
  cases s with
  | threadName name => rfl
  | strictRelease strict => cases strict <;> rfl
  | _ w => exact congrArg (Except.map _) (readWord_toString w)

/-- Going through variables that can be read: all of them are asked for, and those that are set
take the place of their fields. -/
theorem readVariables_of_held {lookup : String → Option String} {a : Assignment}
    (held : a.HeldBy lookup) (vs : List Variable) (c : Config) :
    ∃ d, readVariables lookup vs c = (vs, .ok d) ∧
      ∀ w, d.get w = if w ∈ vs then (a.override c).get w else c.get w := by
  induction vs generalizing c with
  | nil => exact ⟨c, rfl, fun w => (if_neg List.not_mem_nil).symm⟩
  | cons v vs ih =>
    cases found : a.get? v with
    | none =>
      obtain ⟨d, read, fields⟩ := ih c
      have unset : lookup v.name = none := by rw [held v, found, Option.map_none]
      refine ⟨d, by simp only [readVariables, unset, Option.map_none, read], fun w => ?_⟩
      rw [fields]
      by_cases same : w = v
      · subst same
        simp [Assignment.get_override, found]
      · simp [same]
    | some s =>
      obtain ⟨d, read, fields⟩ := ih (c.set s)
      obtain ⟨-, rfl⟩ := Assignment.mem_of_get? found
      have present : lookup s.field.name = some s.text := by rw [held, found, Option.map_some]
      refine ⟨d, by simp only [readVariables, present, Option.map_some, Variable.read_text, read],
        fun w => ?_⟩
      rw [fields, Assignment.get_override, Assignment.get_override, get_set]
      by_cases same : w = s.field
      · subst same
        simp [found]
      · simp [same, Ne.symm same]

theorem ofLookup_of_held {lookup : String → Option String} {a : Assignment}
    (held : a.HeldBy lookup) :
    (ofLookup lookup).2 = (a.override {}).validate.mapError .invalid := by
  obtain ⟨d, read, fields⟩ := readVariables_of_held held Variable.all {}
  have whole : d = a.override {} := ext_get fun v => by
    rw [fields, if_pos (by cases v <;> decide)]
  rw [ofLookup, read, whole]
  rfl

/-! ### Loading from an object -/

/-- A field that may be missing from an object falls back on its value elsewhere. -/
theorem orDefault?_json {α : Type} (read : Json → Option α) {put : α → Setting}
    (inj : Function.Injective put) (back : ∀ x, read (put x).json = some x)
    {fallback x : α} {found : Option Setting} (known : put x = found.getD (put fallback)) :
    orDefault? read fallback (found.map Setting.json) = some x := by
  cases found with
  | none => exact congrArg some (inj known).symm
  | some s =>
    obtain rfl : put x = s := known
    exact back x

theorem lookup_toJson (a : Assignment) (v : Variable) :
    (a.settings.map fun s => (s.field.key, s.json)).lookup v.key = (a.get? v).map Setting.json := by
  rw [Assignment.get?]
  induction a.settings with
  | nil => rfl
  | cons s ss ih =>
    rw [List.map_cons, List.lookup_cons, ih, List.find?_cons]
    by_cases same : s.field = v
    · simp [same]
    · have other : (v.key == s.field.key) = false :=
        beq_false_of_ne fun e => same (Variable.key_inj.mp e).symm
      simp [same, other]

theorem nodup_keys (a : Assignment) :
    ((a.settings.map fun s => (s.field.key, s.json)).map (·.1)).Nodup := by
  have keys : ((a.settings.map Setting.field).map Variable.key).Nodup :=
    a.once.map fun _ _ => Variable.key_inj.mp
  rw [List.map_map] at keys ⊢
  exact keys

theorem ofJson?_toJson (a : Assignment) : ofJson? a.toJson = some (a.override {}) := by
  have fields : a.toJson.leadingFields? fieldNames =
      some (Variable.all.map fun v => (a.get? v).map Setting.json) := by
    rw [Assignment.toJson, Json.leadingFields?_object (nodup_keys a)]
    simp only [← lookup_toJson]
    rfl
  have known (v : Variable) := a.get_override {} v
  have name := orDefault?_json Json.asText? (fun _ _ => Setting.threadName.inj) (fun _ => rfl)
    (known .threadName)
  have stack := orDefault?_json Json.asWord? (fun _ _ => Setting.threadStackSize.inj)
    Json.asWord?_nat (known .threadStackSize)
  have shutdown := orDefault?_json Json.asWord? (fun _ _ => Setting.shutdownTimeoutMs.inj)
    Json.asWord?_nat (known .shutdownTimeoutMs)
  have snapshot := orDefault?_json Json.asWord? (fun _ _ => Setting.snapshotTimeoutMs.inj)
    Json.asWord?_nat (known .snapshotTimeoutMs)
  have audit := orDefault?_json Json.asWord? (fun _ _ => Setting.auditCapacity.inj)
    Json.asWord?_nat (known .auditCapacity)
  have strict := orDefault?_json Json.asBool? (fun _ _ => Setting.strictRelease.inj)
    (fun _ => rfl) (known .strictRelease)
  simp only [ofJson?, fields, Variable.all, List.map_cons, List.map_nil, Option.bind_eq_bind,
    Option.bind_some, name, stack, shutdown, snapshot, audit, strict]
  rfl

theorem ofText_text (a : Assignment) : ofText a.text = (a.override {}).validate := by
  rw [ofText, Assignment.text, Json.parse?_compact, Option.bind_some, ofJson?_toJson]

/-- All fields, with the values they have. -/
def assignment (c : Config) : Assignment where
  settings := Variable.all.map c.get
  once := (by decide : Variable.all.Nodup)

theorem text_assignment (c : Config) : c.assignment.text = c.text := rfl

theorem override_assignment (c d : Config) : c.assignment.override d = c := rfl

/-! ### Both ways -/

theorem validate_ok {c : Config} (sound : c.fault? = none) : c.validate = .ok c := by
  rw [validate, sound]

theorem validate_error {c : Config} {f : ConfigFault} (faulty : c.fault? = some f) :
    c.validate = .error f := by
  rw [validate, faulty]

/-- Variables that hold an assignment and an object that gives the same fields in any order are
loaded alike: as the defaults with the assigned values in their place where that is valid, and
otherwise with the same message for the same fault. A valid configuration is loaded from the text
it is written as. -/
theorem loaders_agree {a b : Assignment} (reordered : b.settings.Perm a.settings)
    {lookup : String → Option String} (held : a.HeldBy lookup) :
    ((a.override {}).fault? = none →
      ofText b.text = .ok (a.override {}) ∧ (ofLookup lookup).2 = .ok (a.override {})) ∧
    (∀ f, (a.override {}).fault? = some f → ofText b.text = .error f ∧
      ∃ e, (ofLookup lookup).2 = .error e ∧ e.cause = f.error.message) ∧
    ∀ c : Config, c.fault? = none → ofText c.text = .ok c := by
  have fromText : ofText b.text = (a.override {}).validate := by
    rw [ofText_text, Assignment.override_perm reordered]
  have fromVariables := ofLookup_of_held held
  refine ⟨fun sound => ?_, fun f faulty => ?_, fun c sound => ?_⟩
  · rw [fromText, fromVariables, validate_ok sound]
    exact ⟨rfl, rfl⟩
  · rw [fromText, fromVariables, validate_error faulty]
    exact ⟨rfl, .invalid f, rfl, rfl⟩
  · rw [← text_assignment, ofText_text, override_assignment, validate_ok sound]

/-- A name with a quote and an accent, written after a field that is asked for later. -/
theorem accented_name_loaded_alike :
    ofText "\x7b\"strict_release\":false,\"thread_name\":\"\\\"Kaï\",\"audit_capacity\":250\x7d" =
      .ok { threadName := "\"Kaï", auditCapacity := 250, strictRelease := false } ∧
    (ofLookup (List.lookup · [("FLEET_ALLOCATOR_THREAD_NAME", "\"Kaï"),
      ("FLEET_ALLOCATOR_AUDIT_CAPACITY", "250"),
      ("FLEET_ALLOCATOR_STRICT_RELEASE", "false")])).2 =
      .ok { threadName := "\"Kaï", auditCapacity := 250, strictRelease := false } := by
  let a : Assignment :=
    ⟨[.threadName "\"Kaï", .auditCapacity 250, .strictRelease false], by decide⟩
  let b : Assignment :=
    ⟨[.strictRelease false, .threadName "\"Kaï", .auditCapacity 250], by decide⟩
  have text : b.text =
    "\x7b\"strict_release\":false,\"thread_name\":\"\\\"Kaï\",\"audit_capacity\":250\x7d" := by
    decide +kernel
  have reordered : b.settings.Perm a.settings := by decide
  have held : a.HeldBy (List.lookup · [("FLEET_ALLOCATOR_THREAD_NAME", "\"Kaï"),
      ("FLEET_ALLOCATOR_AUDIT_CAPACITY", "250"), ("FLEET_ALLOCATOR_STRICT_RELEASE", "false")]) := by
    intro v
    cases v <;> decide
  rw [← text]
  exact (loaders_agree reordered held).1 (by decide)

end Config

end Allotment
