import Mathlib.Data.List.Basic

/-!
# `RainMakerNeo.Lib.Nesting`: objects that are written by a stream of calls

A generator writes an object by calls: `push` opens a nested object under a name, `pop` closes the
innermost one, and `set` writes a field. `build` runs the calls with a stack of open objects. It
fails when a call closes an object that is not open or when an object stays open.

`build_eq_some_iff` says that `build` and `render` are inverse. So a stream of calls is well nested
exactly when it is the rendering of some fields, and these are determined.
-/

set_option autoImplicit false

namespace RainMakerNeo.Lib

/-- A call of a generator. -/
inductive Token (ν α : Type*)
  | push (n : ν)
  | pop
  | set (n : ν) (v : α)
  deriving DecidableEq, Repr

/-- The call opens an object. -/
def Token.isPush {ν α : Type*} : Token ν α → Bool
  | .push _ => true
  | _ => false

/-- The fields of an object, in the order of the text. -/
inductive Fields (ν α : Type*)
  | nil
  | set (n : ν) (v : α) (rest : Fields ν α)
  | object (n : ν) (inner rest : Fields ν α)
  deriving DecidableEq, Repr

namespace Fields

variable {ν α : Type*}

/-- The fields of the first object, then those of the second. -/
def append : Fields ν α → Fields ν α → Fields ν α
  | nil, g => g
  | set n v rest, g => set n v (rest.append g)
  | object n inner rest, g => object n inner (rest.append g)

/-- The calls that write the fields. -/
def render : Fields ν α → List (Token ν α)
  | nil => []
  | set n v rest => .set n v :: rest.render
  | object n inner rest => .push n :: (inner.render ++ .pop :: rest.render)

/-- The calls that are left, the fields of the innermost open object so far, and below it the fields
and the name of each open object. -/
def build : List (Fields ν α × ν) → Fields ν α → List (Token ν α) → Option (Fields ν α)
  | [], f, [] => some f
  | _ :: _, _, [] => none
  | stack, f, .set n v :: ts => build stack (f.append (set n v nil)) ts
  | stack, f, .push n :: ts => build ((f, n) :: stack) nil ts
  | (g, n) :: stack, f, .pop :: ts => build stack (g.append (object n f nil)) ts
  | [], _, .pop :: _ => none

@[simp] theorem append_nil (f : Fields ν α) : f.append nil = f := by
  induction f with
  | nil => rfl
  | set n v rest ih => exact congrArg _ ih
  | object n inner rest _ ih => exact congrArg _ ih

theorem append_assoc (f g h : Fields ν α) : (f.append g).append h = f.append (g.append h) := by
  induction f with
  | nil => rfl
  | set n v rest ih => exact congrArg _ ih
  | object n inner rest _ ih => exact congrArg _ ih

@[simp] theorem render_append (f g : Fields ν α) :
    (f.append g).render = f.render ++ g.render := by
  induction f with
  | nil => rfl
  | set n v rest ih => exact congrArg _ ih
  | object n inner rest _ ih =>
    show Token.push n :: (inner.render ++ .pop :: (rest.append g).render) = _
    rw [ih, render, List.cons_append, List.append_assoc, List.cons_append]

/-- The calls so far, for the open objects and the fields of the innermost one. -/
def written : List (Fields ν α × ν) → Fields ν α → List (Token ν α)
  | [], f => f.render
  | (g, n) :: stack, f => written stack g ++ .push n :: f.render

theorem written_append (stack : List (Fields ν α × ν)) (f g : Fields ν α) :
    written stack (f.append g) = written stack f ++ g.render := by
  cases stack with
  | nil => exact render_append f g
  | cons top stack => rw [written, written, render_append, List.append_assoc, List.cons_append]

/-- The calls of rendered fields add these fields. -/
theorem build_render (stack : List (Fields ν α × ν)) (f g : Fields ν α) (ts : List (Token ν α)) :
    build stack f (g.render ++ ts) = build stack (f.append g) ts := by
  induction g generalizing stack f ts with
  | nil => rw [append_nil, render, List.nil_append]
  | set n v rest ih =>
    rw [render, List.cons_append, build, ih, append_assoc]
    rfl
  | object n inner rest ihi ih =>
    rw [render, List.cons_append, List.append_assoc, build, ihi, List.cons_append, build, ih,
      append_assoc]
    rfl

variable {ts : List (Token ν α)}

/-- What is built renders to the calls so far and the calls that are left. -/
theorem render_of_build {stack : List (Fields ν α × ν)} {f g : Fields ν α}
    (h : build stack f ts = some g) : g.render = written stack f ++ ts := by
  induction ts generalizing stack f with
  | nil =>
    cases stack with
    | nil =>
      obtain rfl := Option.some.inj h
      rw [written, List.append_nil]
    | cons top stack => cases h
  | cons t ts ih =>
    cases t with
    | set n v =>
      rw [build] at h
      rw [ih h, written_append, List.append_assoc]
      rfl
    | push n =>
      rw [build] at h
      rw [ih h, written, List.append_assoc]
      rfl
    | pop =>
      cases stack with
      | nil => cases h
      | cons top stack =>
        obtain ⟨g', n⟩ := top
        rw [build] at h
        rw [ih h, written_append, written, List.append_assoc, List.append_assoc]
        show _ = written stack g' ++ (Token.push n :: (f.render ++ Token.pop :: ts))
        rw [render, render, List.cons_append, List.append_assoc, List.cons_append,
          List.nil_append]

/-- A stream of calls builds some fields exactly when it is the rendering of these fields. -/
theorem build_eq_some_iff {f : Fields ν α} : build [] nil ts = some f ↔ ts = f.render := by
  constructor
  · intro h
    have hrender := render_of_build h
    rw [hrender]
    rfl
  · rintro rfl
    have h := build_render [] nil f []
    rw [List.append_nil] at h
    exact h

/-- Fields without nested objects. -/
def ofList : List (ν × α) → Fields ν α
  | [] => nil
  | (n, v) :: l => set n v (ofList l)

/-- Objects without nested objects in them. -/
def objects : List (ν × List (ν × α)) → Fields ν α
  | [] => nil
  | (n, l) :: rest => object n (ofList l) (objects rest)

@[simp] theorem render_ofList (l : List (ν × α)) :
    (ofList l).render = l.map fun x => .set x.1 x.2 := by
  induction l with
  | nil => rfl
  | cons x l ih => exact congrArg _ ih

theorem render_objects_cons (n : ν) (l : List (ν × α)) (rest : List (ν × List (ν × α))) :
    (objects ((n, l) :: rest)).render =
      .push n :: ((l.map fun x => .set x.1 x.2) ++ .pop :: (objects rest).render) := by
  rw [objects, render, render_ofList]

end Fields

end RainMakerNeo.Lib
