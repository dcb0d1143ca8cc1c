import TorchArchive.Schema.Catalogue

/-!
The catalogue that is used when no other is given.
-/

namespace TorchArchive

/-! ## Parts of schemas -/

private def named (name : String) : List (String × Datum) := [("name", .str name)]

/-- An attribute of a type. -/
private def typed (name type : String) : Datum :=
  .fields (named name ++ [("type", .str type)])

/-- An attribute of a type with a default. -/
private def withDefault (name type : String) (default : Datum) : Datum :=
  .fields (named name ++ [("type", .str type), ("default", default)])

/-- An attribute of a type that is not shown. -/
private def invisible (name type : String) : Datum :=
  .fields (named name ++ [("type", .str type), ("visible", .bool false)])

/-- An attribute without a type that is not shown. -/
private def untyped (name : String) : Datum :=
  .fields (named name ++ [("visible", .bool false)])

/-- An operator with its schema. -/
private def operator (name : String) (category : Option String)
    (inputs outputs : List String) (attributes : Option (List Datum)) :
    String × Datum :=
  let parameters (names : List String) : Datum :=
    .list (names.map fun name => .fields (named name))
  let front : List (String × Datum) :=
    match category with
    | some category => [("category", .str category)]
    | none => []
  let back : List (String × Datum) :=
    match attributes with
    | some attributes => [("attributes", .list attributes)]
    | none => []
  (name, .fields
    (front ++ [("inputs", parameters inputs), ("outputs", parameters outputs)] ++
      back))

/-! ## The operators -/

/-- The schemas of common operators. -/
def Catalogue.bundled : Catalogue := ⟨Table.ofList
  [
    operator "_convolution" (some "Layer") ["input", "weight", "bias"] ["output"]
      (some [
        withDefault "stride" "int64[]" (.int 1),
        withDefault "padding" "int64[]" (.int 0),
        withDefault "dilation" "int64[]" (.int 1),
        withDefault "transposed" "boolean" (.bool false),
        withDefault "output_padding" "int64[]" (.int 0),
        withDefault "groups" "int64" (.int 1),
        invisible "benchmark" "boolean",
        invisible "deterministic" "boolean",
        invisible "cudnn_enabled" "boolean"]),
    operator "addmm" (some "Layer") ["input", "mat1", "mat2"] ["output"]
      (some [
        withDefault "beta" "float32" (.int 1),
        withDefault "alpha" "float32" (.int 1)]),
    operator "matmul" none ["input", "other"] ["output"] none,
    operator "batch_norm" (some "Normalization")
      ["input", "weight", "bias", "running_mean", "running_var"] ["output"]
      (some [
        withDefault "training" "boolean" (.bool false),
        withDefault "momentum" "float32" (.float (Decimal.round false ⟨1, -1⟩)),
        withDefault "eps" "float32" (.float (Decimal.round false ⟨1, -5⟩)),
        invisible "cudnn_enabled" "boolean"]),
    operator "relu" (some "Activation") ["input"] ["output"] none,
    operator "relu_" (some "Activation") ["input"] ["output"] none,
    operator "log_softmax" (some "Activation") ["input"] ["output"]
      (some [
        typed "dim" "int64",
        untyped "dtype"]),
    operator "max_pool2d" (some "Pool") ["input"] ["output"]
      (some [
        withDefault "kernel_size" "int64[]" (.int 0),
        withDefault "stride" "int64[]" (.int 0),
        withDefault "padding" "int64[]" (.int 0),
        withDefault "dilation" "int64[]" (.int 1),
        withDefault "ceil_mode" "boolean" (.bool false)]),
    operator "adaptive_avg_pool2d" (some "Pool") ["input"] ["output"]
      (some [
        typed "output_size" "int64[]"]),
    operator "dropout" (some "Dropout") ["input"] ["output"]
      (some [
        withDefault "p" "float32" (.float (Decimal.round false ⟨5, -1⟩)),
        invisible "train" "boolean"]),
    operator "dropout_" (some "Dropout") ["input"] ["output"]
      (some [
        withDefault "p" "float32" (.float (Decimal.round false ⟨5, -1⟩)),
        invisible "train" "boolean"]),
    operator "add" none ["input", "other"] ["output"]
      (some [
        withDefault "alpha" "float32" (.int 1)]),
    operator "add_" none ["input", "other"] ["output"]
      (some [
        withDefault "alpha" "float32" (.int 1)]),
    operator "mul_" none ["input", "other"] ["output"] none,
    operator "mean" none ["input"] ["output"]
      (some [
        typed "dim" "int64[]",
        withDefault "keepdim" "boolean" (.bool false)]),
    operator "view" (some "Shape") ["input"] ["output"]
      (some [
        typed "size" "int64[]"]),
    operator "flatten" (some "Shape") ["input"] ["output"]
      (some [
        withDefault "start_dim" "int64" (.int 0),
        withDefault "end_dim" "int64" (.int (-1))]),
    operator "cat" (some "Tensor") ["inputs"] ["output"]
      (some [
        withDefault "dim" "int64" (.int 0)]),
    operator "select" (some "Tensor") ["input"] ["output"]
      (some [
        typed "dim" "int64",
        typed "index" "int64"]),
    operator "unsqueeze" (some "Shape") ["input"] ["output"]
      (some [
        typed "dim" "int64"])
  ]⟩

end TorchArchive
