import Daxson.Go

/-! # `yaml.v3`

The library is a parameter. Here are the Go types as its reflection sees them.
-/

namespace Daxson.Yaml

inductive Scalar where
  | null
  | bool (b : Bool)
  | int (n : Int)
  /-- A `float64`, by its bits. -/
  | float (bits : UInt64)
  | str (s : Bytes)
  deriving DecidableEq, Repr

inductive Node where
  | scalar (s : Scalar)
  | seq (items : List Node)
  | map (pairs : List (Bytes × Node))
  deriving Repr

/-! ## Go types -/

mutual

inductive GoType : Type → Type 1
  | bool : GoType Bool
  | int : GoType Int64
  | byte : GoType UInt8
  | float : GoType UInt64
  | string : GoType Bytes
  /-- `time.Duration`, in nanoseconds. -/
  | duration : GoType Int64
  | slice {α : Type} (name : String) (elem : GoType α) (zero : α) : GoType (List α)
  /-- A struct that has no `MarshalYAML`, with its `UnmarshalYAML` if it has one. -/
  | struct {σ : Type} (name : String) (fields : Fields σ) (unmarshalYAML : Option (Node → Except GoError σ)) : GoType σ

/-- The fields of a struct, by their tags or lower-cased names. -/
inductive Fields : Type → Type 1
  | nil {σ : Type} : Fields σ
  | cons {σ α : Type} (key : String) (omitempty : Bool) (type : GoType α) (get : σ → α) (set : σ → α → σ)
      (rest : Fields σ) : Fields σ

end

mutual

def GoType.isZero : {α : Type} → GoType α → α → Bool
  | _, .bool, b => !b
  | _, .int, n | _, .duration, n => n == 0
  | _, .byte, b => b == 0
  | _, .float, bits => bits == 0
  | _, .string, s => s.isEmpty
  | _, .slice _ _ _, xs => xs.isEmpty
  | _, .struct _ fields _, x => fields.isZero x

def Fields.isZero : {σ : Type} → Fields σ → σ → Bool
  | _, .nil, _ => true
  | _, .cons _ _ type get _ rest, x => type.isZero (get x) && rest.isZero x

end

mutual

/-- What a value is written as: a struct as the mapping of its fields, a `time.Duration` as its string. -/
def GoType.node (durationString : Int64 → Bytes) : {α : Type} → GoType α → α → Node
  | _, .bool, b => .scalar (.bool b)
  | _, .int, n => .scalar (.int n.toInt)
  | _, .byte, b => .scalar (.int b.toNat)
  | _, .float, bits => .scalar (.float bits)
  | _, .string, s => .scalar (.str s)
  | _, .duration, d => .scalar (.str (durationString d))
  | _, .slice _ elem _, xs => .seq (xs.map fun x => elem.node durationString x)
  | _, .struct _ fields _, x => .map (fields.pairs durationString x)

def Fields.pairs (durationString : Int64 → Bytes) : {σ : Type} → Fields σ → σ → List (Bytes × Node)
  | _, .nil, _ => []
  | _, .cons key omitempty type get _ rest, x =>
    if omitempty && type.isZero (get x) then rest.pairs durationString x
    else (ascii key, type.node durationString (get x)) :: rest.pairs durationString x

end

/-- The error of a call, which is not made for `null`. -/
def callFailure {σ : Type} (unmarshalYAML : Node → Except GoError σ) : Node → List GoError
  | .scalar .null => []
  | node =>
    match unmarshalYAML node with
    | .error e => [e]
    | .ok _ => []

mutual

/-- The errors of the `UnmarshalYAML` calls that reading a node as a type makes. -/
def GoType.failures : {α : Type} → GoType α → Node → List GoError
  | _, .slice _ elem _, .seq items => items.flatMap fun node => elem.failures node
  | _, .struct _ fields none, .map pairs => pairs.flatMap fun (key, node) => fields.failures key node
  | _, .struct _ _ (some unmarshalYAML), node => callFailure unmarshalYAML node
  | _, _, _ => []

def Fields.failures : {σ : Type} → Fields σ → Bytes → Node → List GoError
  | _, .nil, _, _ => []
  | _, .cons key _ type _ _ rest, name, node =>
    if ascii key = name then type.failures node else rest.failures name node

end

section Pairs

variable {σ α : Type} {ds : Int64 → Bytes} {key : String} {type : GoType α} {get : σ → α} {set : σ → α → σ}
  {rest : Fields σ} {x : σ}

theorem mem_pairs_head : (ascii key, type.node ds (get x)) ∈ (Fields.cons key false type get set rest).pairs ds x :=
  .head _

theorem mem_pairs_rest {omitempty : Bool} {pair : Bytes × Node} (h : pair ∈ rest.pairs ds x) :
    pair ∈ (Fields.cons key omitempty type get set rest).pairs ds x := by
  unfold Fields.pairs
  split_ifs
  · exact h
  · exact .tail _ h

end Pairs

theorem struct_failures {σ : Type} {name : String} {fields : Fields σ} {pairs : List (Bytes × Node)} {key : Bytes}
    {node : Node} (hmem : (key, node) ∈ pairs) (h : fields.failures key node ≠ []) :
    (GoType.struct name fields none).failures (.map pairs) ≠ [] := by
  obtain ⟨e, he⟩ := List.exists_mem_of_ne_nil _ h
  exact List.ne_nil_of_mem (List.mem_flatMap.mpr ⟨(key, node), hmem, he⟩)

/-! ## The library -/

/-- The calls into `yaml.v3`, and those into `time` for the texts of durations. -/
structure Library (Doc : Type) where
  marshal : {α : Type} → GoType α → α → Except GoError Doc
  /-- `yaml.Unmarshal`, over the value that is there. -/
  unmarshal : {α : Type} → GoType α → Doc → α → Except GoError α
  /-- `Node.Decode`. -/
  decode : {α : Type} → GoType α → Node → α → Except GoError α
  /-- The node of a text, if it is a document. -/
  tree : Doc → Option Node
  durationString : Int64 → Bytes
  parseDuration : Bytes → Except GoError Int64

structure Library.Documented {Doc : Type} (lib : Library Doc) : Prop where
  /-- A struct without a marshaler is written as a mapping, and a `time.Duration` as its string. -/
  marshal_tree : ∀ {α : Type} (type : GoType α) (x : α) (doc : Doc), lib.marshal type x = .ok doc →
    lib.tree doc = some (type.node lib.durationString x)
  /-- `UnmarshalYAML` is called, and its error is one of `Unmarshal`. -/
  unmarshal_calls : ∀ {α : Type} (type : GoType α) (doc : Doc) (node : Node) (old : α), lib.tree doc = some node →
    type.failures node ≠ [] → ∃ e, lib.unmarshal type doc old = .error e
  /-- A mapping is no string. -/
  decode_string : ∀ (pairs : List (Bytes × Node)) (old : Bytes), ∃ e, lib.decode .string (.map pairs) old = .error e

end Daxson.Yaml
