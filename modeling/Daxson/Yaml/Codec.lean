import Daxson.Yaml

/-! # A `yaml.v3` to run

What the library does with a node tree. The text of a document is left out.
-/

namespace Daxson.Yaml

/-- The texts of floats and durations, and the conversions between numbers. -/
structure Texts where
  formatFloat : UInt64 → Bytes
  floatOfInt : Int → UInt64
  truncFloat : UInt64 → Option Int
  durationString : Int64 → Bytes
  parseDuration : Bytes → Except GoError Int64

/-- `time.Duration.String` on whole seconds that are not negative. -/
def secondsString (d : Int64) : Bytes :=
  let n := d.toInt / 1000000000
  let hours := if 3600 ≤ n then formatInt (n / 3600) ++ ascii "h" else []
  let minutes := if 60 ≤ n then formatInt (n / 60 % 60) ++ ascii "m" else []
  hours ++ minutes ++ formatInt (n % 60) ++ ascii "s"

/-- The texts of whole seconds and of the number 2. -/
instance : Inhabited Texts where
  default :=
    { formatFloat := fun _ => ascii "2", floatOfInt := fun _ => 0, truncFloat := fun _ => none
      durationString := secondsString, parseDuration := fun _ => .ok 1000000000 }

variable (t : Texts)

def Scalar.text : Scalar → Bytes
  | .null => ascii "null"
  | .bool b => if b then ascii "true" else ascii "false"
  | .int n => formatInt n
  | .float bits => t.formatFloat bits
  | .str s => s

def Scalar.tag : Scalar → Bytes
  | .null => ascii "!!null"
  | .bool _ => ascii "!!bool"
  | .int _ => ascii "!!int"
  | .float _ => ascii "!!float"
  | .str _ => ascii "!!str"

/-- One line of a `yaml.TypeError`. -/
def mismatch (goType : String) : Node → Bytes
  | .scalar s =>
    let text := s.text t
    let shown := if 10 < text.length then text.take 7 ++ ascii "..." else text
    ascii "cannot unmarshal " ++ s.tag ++ ascii " `" ++ shown ++ ascii "` into " ++ ascii goType
  | .seq _ => ascii "cannot unmarshal !!seq into " ++ ascii goType
  | .map _ => ascii "cannot unmarshal !!map into " ++ ascii goType

/-- A decoded value and the lines of the `TypeError`; an error of another kind stops the decoder. -/
abbrev Decoded (α : Type) := Except GoError (α × List Bytes)

def typeErrorFormat : String := "yaml: unmarshal errors:\n  %s"

/-- The lines of an error, if it is a `yaml.TypeError`. -/
def typeErrorLines : GoError → List Bytes
  | .new format lines => if format = typeErrorFormat then lines else []
  | _ => []

/-! ## The decoder -/

/-- A number into an integer type that holds the values of `inRange`. -/
def decodeNumber {α : Type} (goType : String) (inRange : Int → Option α) (old : α) (node : Node) : Decoded α :=
  let number : Option Int :=
    match node with
    | .scalar (.int n) => some n
    | .scalar (.float bits) => t.truncFloat bits
    | _ => none
  match node, number.bind inRange with
  | .scalar .null, _ => .ok (old, [])
  | _, some x => .ok (x, [])
  | node, none => .ok (old, [mismatch t goType node])

def decodeInt64 (goType : String) : Int64 → Node → Decoded Int64 :=
  decodeNumber t goType fun n => if -2 ^ 63 ≤ n ∧ n < 2 ^ 63 then some (Int64.ofInt n) else none

/-- The elements of a sequence. One that is `null` or has an error is dropped. -/
def decodeItems {α : Type} (decode : Node → Decoded α) : List Node → Decoded (List α)
  | [] => .ok ([], [])
  | node :: rest =>
    match decode node, decodeItems decode rest with
    | .error e, _ => .error e
    | .ok _, .error e => .error e
    | .ok (x, errs), .ok (xs, errs') =>
      match node, errs with
      | .scalar .null, _ => .ok (xs, errs ++ errs')
      | _, [] => .ok (x :: xs, errs')
      | _, _ => .ok (xs, errs ++ errs')

def decodePairs {σ : Type} (decode : Bytes → σ → Node → Decoded σ) : List (Bytes × Node) → σ → Decoded σ
  | [], s => .ok (s, [])
  | (key, node) :: rest, s =>
    match decode key s node with
    | .error e => .error e
    | .ok (s, errs) => (decodePairs decode rest s).map fun (s, errs') => (s, errs ++ errs')

/-- The keys that an earlier pair has too. -/
def duplicateKeys : List (Bytes × Node) → List Bytes
  | [] => []
  | (key, _) :: rest =>
    (rest.filter (·.1 == key)).map (fun _ => ascii "mapping key " ++ key ++ ascii " already defined") ++
      duplicateKeys rest

def callUnmarshaler {σ : Type} (unmarshalYAML : Node → Except GoError σ) (old : σ) : Node → Decoded σ
  | .scalar .null => .ok (old, [])
  | node =>
    match unmarshalYAML node with
    | .ok x => .ok (x, [])
    | .error e => if typeErrorLines e = [] then .error e else .ok (old, typeErrorLines e)

mutual

def GoType.decode : {α : Type} → GoType α → α → Node → Decoded α
  | _, .bool, old, node =>
    match node with
    | .scalar .null => .ok (old, [])
    | .scalar (.bool b) => .ok (b, [])
    | .scalar (.str s) =>
      if s ∈ ["y", "Y", "yes", "on"].map ascii then .ok (true, [])
      else if s ∈ ["n", "N", "no", "off"].map ascii then .ok (false, [])
      else .ok (old, [mismatch t "bool" node])
    | node => .ok (old, [mismatch t "bool" node])
  | _, .int, old, node => decodeInt64 t "int" old node
  | _, .byte, old, node =>
    decodeNumber t "uint8" (fun n => if 0 ≤ n ∧ n < 256 then some (UInt8.ofNat n.toNat) else none) old node
  | _, .float, old, node =>
    match node with
    | .scalar .null => .ok (old, [])
    | .scalar (.float bits) => .ok (bits, [])
    | .scalar (.int n) => .ok (t.floatOfInt n, [])
    | node => .ok (old, [mismatch t "float64" node])
  | _, .string, old, node =>
    -- Every scalar has a text, so every scalar but `null` is a string.
    match node with
    | .scalar .null => .ok (old, [])
    | .scalar s => .ok (s.text t, [])
    | node => .ok (old, [mismatch t "string" node])
  | _, .duration, old, node =>
    match node with
    | .scalar (.str s) =>
      match t.parseDuration s with
      | .ok d => .ok (d, [])
      | .error _ => .ok (old, [mismatch t "time.Duration" node])
    | node => decodeInt64 t "time.Duration" old node
  | _, .slice name elem zero, old, node =>
    match node with
    | .scalar .null => .ok ([], [])
    | .seq items => decodeItems (fun node => elem.decode zero node) items
    | node => .ok (old, [mismatch t name node])
  | _, .struct name fields none, old, node =>
    match node with
    | .scalar .null => .ok (old, [])
    | .map pairs =>
      if duplicateKeys pairs = [] then decodePairs (fun key old node => fields.decode key old node) pairs old
      else .ok (old, duplicateKeys pairs)
    | node => .ok (old, [mismatch t name node])
  | _, .struct _ _ (some unmarshalYAML), old, node => callUnmarshaler unmarshalYAML old node

/-- The value of one key. A key without a field is ignored. -/
def Fields.decode : {σ : Type} → Fields σ → Bytes → σ → Node → Decoded σ
  | _, .nil, _, old, _ => .ok (old, [])
  | _, .cons key _ type get set rest, name, old, node =>
    if ascii key = name then (type.decode (get old) node).map fun (x, errs) => (set old x, errs)
    else rest.decode name old node

end

/-- The decoder's result as an error or a value. -/
def Decoded.result {α : Type} : Decoded α → Except GoError α
  | .error e => .error e
  | .ok (x, []) => .ok x
  | .ok (_, errs) => .error (.new typeErrorFormat errs)

def codec : Library Node where
  marshal := fun type x => .ok (type.node t.durationString x)
  unmarshal := fun type doc old => (type.decode t old doc).result
  decode := fun type node old => (type.decode t old node).result
  tree := some
  durationString := t.durationString
  parseDuration := t.parseDuration

/-! ## What is documented holds -/

/-- The decoder has stopped, or has lines to report. -/
def Decoded.Fails {α : Type} (d : Decoded α) : Prop := ∀ x, d ≠ .ok (x, [])

theorem result_of_fails {α : Type} {d : Decoded α} (h : Decoded.Fails d) : ∃ e, Decoded.result d = .error e := by
  cases d with
  | error e => exact ⟨e, rfl⟩
  | ok res =>
    obtain ⟨x, errs⟩ := res
    cases errs with
    | nil => exact absurd rfl (h x)
    | cons line errs => exact ⟨_, rfl⟩

theorem callUnmarshaler_fails {σ : Type} {unmarshalYAML : Node → Except GoError σ} {node : Node}
    (h : callFailure unmarshalYAML node ≠ []) (old : σ) : Decoded.Fails (callUnmarshaler unmarshalYAML old node) := by
  unfold callUnmarshaler
  split
  · exact absurd rfl h
  · unfold callFailure at h
    split at h
    · exact absurd rfl h
    · cases hcall : unmarshalYAML node with
      | ok x =>
        rw [hcall] at h
        exact absurd rfl h
      | error e =>
        intro x
        dsimp only
        split_ifs with hlines
        · exact fun heq => by cases heq
        · exact fun heq => hlines (Prod.mk.inj (Except.ok.inj heq)).2

theorem decodeItems_fails {α : Type} {decode : Node → Decoded α} {items : List Node} {node : Node} (hmem : node ∈ items)
    (h : Decoded.Fails (decode node)) : Decoded.Fails (decodeItems decode items) := by
  induction items with
  | nil => cases hmem
  | cons first rest ih =>
    intro xs
    unfold decodeItems
    cases hfirst : decode first with
    | error e => exact fun heq => by cases heq
    | ok res =>
      obtain ⟨x, errs⟩ := res
      cases hrest : decodeItems decode rest with
      | error e => exact fun heq => by cases heq
      | ok res =>
        obtain ⟨ys, errs'⟩ := res
        -- Lines of the head or lines of the tail: one of them is not empty.
        have hlines : errs ++ errs' ≠ [] := by
          intro hnil
          obtain ⟨rfl, rfl⟩ := List.append_eq_nil_iff.mp hnil
          rcases List.mem_cons.mp hmem with rfl | hmem
          · exact h x hfirst
          · exact ih hmem ys hrest
        dsimp only
        split
        · exact fun heq => hlines (Prod.mk.inj (Except.ok.inj heq)).2
        · exact fun heq => hlines (Prod.mk.inj (Except.ok.inj heq)).2
        · exact fun heq => hlines (Prod.mk.inj (Except.ok.inj heq)).2

theorem decodePairs_fails {σ : Type} {decode : Bytes → σ → Node → Decoded σ} {pairs : List (Bytes × Node)} {key : Bytes}
    {node : Node} (hmem : (key, node) ∈ pairs) (h : ∀ old, Decoded.Fails (decode key old node)) (old : σ) :
    Decoded.Fails (decodePairs decode pairs old) := by
  induction pairs generalizing old with
  | nil => cases hmem
  | cons first rest ih =>
    obtain ⟨name, value⟩ := first
    intro x heq
    unfold decodePairs at heq
    cases hfirst : decode name old value with
    | error e =>
      rw [hfirst] at heq
      cases heq
    | ok res =>
      obtain ⟨s, errs⟩ := res
      rw [hfirst] at heq
      dsimp only at heq
      cases hrest : decodePairs decode rest s with
      | error e =>
        rw [hrest] at heq
        cases heq
      | ok res =>
        obtain ⟨y, errs'⟩ := res
        rw [hrest] at heq
        obtain ⟨rfl, rfl⟩ := List.append_eq_nil_iff.mp (Prod.mk.inj (Except.ok.inj heq)).2
        rcases List.mem_cons.mp hmem with heq | hmem
        · obtain ⟨rfl, rfl⟩ := Prod.mk.inj heq
          exact h old s hfirst
        · exact ih hmem s y hrest

mutual

theorem GoType.decode_fails : {α : Type} → (type : GoType α) → (old : α) → (node : Node) →
    type.failures node ≠ [] → Decoded.Fails (type.decode t old node)
  | _, .slice name elem zero, old, node, h => by
    cases node with
    | scalar | map => exact absurd rfl h
    | seq items =>
      obtain ⟨e, he⟩ := List.exists_mem_of_ne_nil _ h
      obtain ⟨node, hmem, he⟩ := List.mem_flatMap.mp he
      exact decodeItems_fails hmem (elem.decode_fails zero node (List.ne_nil_of_mem he))
  | _, .struct name fields none, old, node, h => by
    cases node with
    | scalar | seq => exact absurd rfl h
    | map pairs =>
      obtain ⟨e, he⟩ := List.exists_mem_of_ne_nil _ h
      obtain ⟨⟨key, node⟩, hmem, he⟩ := List.mem_flatMap.mp he
      unfold GoType.decode
      dsimp only
      split_ifs with hdup
      · exact decodePairs_fails hmem (fun old => fields.decode_fails key old node (List.ne_nil_of_mem he)) old
      · exact fun x heq => hdup (Prod.mk.inj (Except.ok.inj heq)).2
  | _, .struct name fields (some unmarshalYAML), old, node, h => by
    exact callUnmarshaler_fails h old
  | _, .bool, _, _, h | _, .int, _, _, h | _, .byte, _, _, h | _, .float, _, _, h | _, .string, _, _, h
  | _, .duration, _, _, h => by
    exact absurd rfl h

theorem Fields.decode_fails : {σ : Type} → (fields : Fields σ) → (key : Bytes) → (old : σ) → (node : Node) →
    fields.failures key node ≠ [] → Decoded.Fails (fields.decode t key old node)
  | _, .nil, _, _, _, h => absurd rfl h
  | _, .cons key omitempty type get set rest, name, old, node, h => by
    unfold Fields.failures at h
    unfold Fields.decode
    split_ifs at h ⊢ with hkey
    · intro x heq
      cases hdec : type.decode t (get old) node with
      | error e =>
        rw [hdec] at heq
        cases heq
      | ok res =>
        rw [hdec] at heq
        obtain ⟨y, errs⟩ := res
        obtain ⟨-, rfl⟩ := Prod.mk.inj (Except.ok.inj heq)
        exact type.decode_fails (get old) node h y hdec
    · exact rest.decode_fails name old node h

end

theorem codec_documented : (codec t).Documented where
  marshal_tree := by
    intro α type x doc h
    exact congrArg some (Except.ok.inj h).symm
  unmarshal_calls := by
    intro α type doc node old htree h
    obtain rfl := Option.some.inj htree
    exact result_of_fails (type.decode_fails t old doc h)
  decode_string := fun pairs old => ⟨_, rfl⟩

end Daxson.Yaml
