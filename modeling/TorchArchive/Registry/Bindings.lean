import TorchArchive.Heap.Scope

/-!
The names under which archive code finds the builtins.
-/

namespace TorchArchive

namespace Registry

/-- The builtins that are plain functions. -/
def functions : List (String × Builtin) :=
  [("annotate", .annotate),
    ("unchecked_cast", .uncheckedCast),
    ("collections.OrderedDict", .orderedDict),
    ("int", .int),
    ("float", .float),
    ("getattr", .getMember),
    ("uninitialized", .uninitialized),
    ("ops.prim.unchecked_unwrap_optional", .uncheckedUnwrap),
    ("ops.prim.NumToTensor", .numberToTensor),
    ("ops.prim.RaiseException", .raiseException),
    ("ops.quantized.conv_prepack", .prepack .conv),
    ("ops.quantized.linear_prepack", .prepack .linear),
    ("torch.__is__", .isSame),
    ("torch.__isnot__", .isNotSame),
    ("torch.__not__", .negation),
    ("torch._unwrap_optional", .unwrapOptional),
    ("torch._utils._rebuild_tensor_v2", .rebuildTensor),
    ("torch._utils._rebuild_qtensor", .rebuildQuantizedTensor),
    ("torch._utils._rebuild_parameter", .rebuildParameter),
    ("torch.dim", .dimension),
    ("torch.eq", .equal),
    ("torch.ne", .notEqual),
    ("torch.gt", .greater),
    ("torch.lt", .less),
    ("torch.mul", .multiply),
    ("torch.q_scale", .quantizerScale),
    ("torch.t", .transpose),
    ("torch.jit._pickle.build_boollist", .buildList .bool),
    ("torch.jit._pickle.build_doublelist", .buildList .double),
    ("torch.jit._pickle.build_intlist", .buildList .int),
    ("torch.jit._pickle.build_tensorlist", .buildList .tensor)]

/-- The operators whose calls are recorded. -/
def operators : List String :=
  ["torch._convolution", "torch.addmm", "torch.relu_", "torch.relu",
    "torch.max_pool2d", "torch.view", "torch.matmul", "torch.flatten", "torch.add_",
    "torch.add", "torch.mul_", "torch.mean", "torch.log_softmax", "torch.dropout",
    "torch.dropout_", "torch.adaptive_avg_pool2d", "torch.batch_norm", "torch.cat",
    "torch.select", "torch.unsqueeze"]

/-- Everything that is bound, in the order in which it is bound. -/
def bindings : List (String × Value) :=
  functions.map (fun binding => (binding.1, .builtin binding.2)) ++
    StorageType.all.map (fun type => (type.qualifiedName, .storageType type)) ++
    operators.map (fun name => (name, .builtin (.operator name)))

/-- Binds a qualified name to a value if the name leads to a place for it. -/
def bindEntry (root : Scope) (heap : Heap) (binding : String × Value) : Heap :=
  match heap.bindQualified root binding.1 binding.2 with
  | .ok heap => heap
  | .error _ => heap

/-- The heap and the outermost scope that archive code begins with. -/
def initial : Heap × Scope :=
  let (table, heap) := Heap.initial.addTable .empty
  let root : Scope := ⟨⟨table, none⟩, []⟩
  (bindings.foldl (bindEntry root) heap, root)

/-! ## Names in parts -/

/-- The parts of the names of all that is bound. -/
def paths : List (List String) :=
  [["annotate"], ["unchecked_cast"], ["collections", "OrderedDict"], ["int"], ["float"],
    ["getattr"], ["uninitialized"], ["ops", "prim", "unchecked_unwrap_optional"],
    ["ops", "prim", "NumToTensor"], ["ops", "prim", "RaiseException"],
    ["ops", "quantized", "conv_prepack"], ["ops", "quantized", "linear_prepack"],
    ["torch", "__is__"], ["torch", "__isnot__"], ["torch", "__not__"],
    ["torch", "_unwrap_optional"], ["torch", "_utils", "_rebuild_tensor_v2"],
    ["torch", "_utils", "_rebuild_qtensor"], ["torch", "_utils", "_rebuild_parameter"],
    ["torch", "dim"], ["torch", "eq"], ["torch", "ne"], ["torch", "gt"], ["torch", "lt"],
    ["torch", "mul"], ["torch", "q_scale"], ["torch", "t"],
    ["torch", "jit", "_pickle", "build_boollist"],
    ["torch", "jit", "_pickle", "build_doublelist"],
    ["torch", "jit", "_pickle", "build_intlist"],
    ["torch", "jit", "_pickle", "build_tensorlist"], ["torch", "ByteStorage"],
    ["torch", "CharStorage"], ["torch", "ShortStorage"], ["torch", "IntStorage"],
    ["torch", "LongStorage"], ["torch", "HalfStorage"], ["torch", "FloatStorage"],
    ["torch", "DoubleStorage"], ["torch", "QInt8Storage"], ["torch", "_convolution"],
    ["torch", "addmm"], ["torch", "relu_"], ["torch", "relu"], ["torch", "max_pool2d"],
    ["torch", "view"], ["torch", "matmul"], ["torch", "flatten"], ["torch", "add_"],
    ["torch", "add"], ["torch", "mul_"], ["torch", "mean"], ["torch", "log_softmax"],
    ["torch", "dropout"], ["torch", "dropout_"], ["torch", "adaptive_avg_pool2d"],
    ["torch", "batch_norm"], ["torch", "cat"], ["torch", "select"], ["torch", "unsqueeze"]]

/-- Binds a name that is given in its parts to a value if it leads to a place for it. -/
def bindParts (root : Scope) (heap : Heap) (binding : List String × Value) : Heap :=
  match heap.bindPath root binding.2 binding.1 with
  | .ok heap => heap
  | .error _ => heap

theorem paths_eq : bindings.map (fun binding => Heap.nameParts binding.1) = paths := by
  decide +kernel

/-- The heap that archive code begins with, made without taking the names apart. -/
def assembled : Heap × Scope :=
  let (table, heap) := Heap.initial.addTable .empty
  let root : Scope := ⟨⟨table, none⟩, []⟩
  ((paths.zip (bindings.map Prod.snd)).foldl (bindParts root) heap, root)

theorem bindEntry_eq (root : Scope) (heap : Heap) (binding : String × Value) :
    bindEntry root heap binding =
      bindParts root heap (Heap.nameParts binding.1, binding.2) := by
  rw [bindEntry, bindParts, Heap.bindQualified_eq_bindPath]

theorem initial_eq : initial = assembled := by
  have parts (root : Scope) (heap : Heap) :
      bindings.foldl (bindEntry root) heap =
        (paths.zip (bindings.map Prod.snd)).foldl (bindParts root) heap := by
    rw [← paths_eq, List.zip_map', List.foldl_map]
    exact congrArg (fun step => bindings.foldl step heap)
      (funext fun heap => funext (bindEntry_eq root heap))
  rw [initial, assembled]
  dsimp only
  rw [parts]

end Registry

end TorchArchive
