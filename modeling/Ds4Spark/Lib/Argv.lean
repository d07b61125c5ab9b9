import Mathlib.Data.List.Perm.Basic

/-!
# Ds4Spark.Lib.Argv

An argument vector: words before the first flag, and then one group for each flag, the flag with the words
after it.

* `lead`, `groups`: a vector is cut at its flags, and `render_groups` puts it together again.
* `groups_render`: the groups that are put together are the groups that are cut.
* `groups_append`: two vectors are cut apart, when the second begins with a flag.
* `perm_of_filter_key`: lists that agree on the items of every key have the same items.
-/

namespace Ds4Spark
namespace Argv

variable {α : Type} {isFlag : α → Bool}

structure Opt (α : Type) where
  flag : α
  words : List α
deriving DecidableEq

def Opt.tokens (g : Opt α) : List α := g.flag :: g.words

def render (gs : List (Opt α)) : List α := gs.flatMap Opt.tokens

/-- The words before the first flag. -/
def lead (isFlag : α → Bool) : List α → List α
  | [] => []
  | x :: xs => if isFlag x then [] else x :: lead isFlag xs

def groups (isFlag : α → Bool) : List α → List (Opt α)
  | [] => []
  | x :: xs => if isFlag x then ⟨x, lead isFlag xs⟩ :: groups isFlag xs else groups isFlag xs

/-- A flag, with words that are no flags. -/
structure Opt.Formed (isFlag : α → Bool) (g : Opt α) : Prop where
  flag : isFlag g.flag = true
  words : ∀ w ∈ g.words, isFlag w = false

@[simp] theorem render_nil : render ([] : List (Opt α)) = [] := rfl

@[simp] theorem render_cons (g : Opt α) (gs : List (Opt α)) :
    render (g :: gs) = g.flag :: (g.words ++ render gs) := rfl

@[simp] theorem render_append (gs hs : List (Opt α)) : render (gs ++ hs) = render gs ++ render hs := by
  simp [render]

theorem lead_flag {x : α} (h : isFlag x = true) (xs : List α) : lead isFlag (x :: xs) = [] := by simp [lead, h]

theorem lead_word {x : α} (h : isFlag x = false) (xs : List α) :
    lead isFlag (x :: xs) = x :: lead isFlag xs := by simp [lead, h]

theorem groups_flag {x : α} (h : isFlag x = true) (xs : List α) :
    groups isFlag (x :: xs) = ⟨x, lead isFlag xs⟩ :: groups isFlag xs := by simp [groups, h]

theorem groups_word {x : α} (h : isFlag x = false) (xs : List α) :
    groups isFlag (x :: xs) = groups isFlag xs := by simp [groups, h]

theorem render_groups (xs : List α) : lead isFlag xs ++ render (groups isFlag xs) = xs := by
  induction xs with
  | nil => rfl
  | cons x xs ih =>
    cases h : isFlag x with
    | false => rw [lead_word h, groups_word h, List.cons_append, ih]
    | true => rw [lead_flag h, groups_flag h, render_cons, List.nil_append, ih]

theorem lead_words (xs : List α) : ∀ w ∈ lead isFlag xs, isFlag w = false := by
  induction xs with
  | nil => simp [lead]
  | cons x xs ih =>
    cases h : isFlag x with
    | false => simpa [lead_word h, h] using ih
    | true => simp [lead_flag h]

theorem formed_of_mem {xs : List α} {g : Opt α} (hg : g ∈ groups isFlag xs) : g.Formed isFlag := by
  induction xs with
  | nil => cases hg
  | cons x xs ih =>
    cases h : isFlag x with
    | false =>
      rw [groups_word h] at hg
      exact ih hg
    | true =>
      rw [groups_flag h] at hg
      rcases List.mem_cons.mp hg with rfl | hg
      · exact ⟨h, lead_words xs⟩
      · exact ih hg

theorem lead_append_words {ws : List α} (h : ∀ w ∈ ws, isFlag w = false) (xs : List α) :
    lead isFlag (ws ++ xs) = ws ++ lead isFlag xs := by
  induction ws with
  | nil => rfl
  | cons w ws ih =>
    rw [List.cons_append, lead_word (h w List.mem_cons_self), ih fun v hv => h v (List.mem_cons_of_mem _ hv)]
    rfl

theorem groups_append_words {ws : List α} (h : ∀ w ∈ ws, isFlag w = false) (xs : List α) :
    groups isFlag (ws ++ xs) = groups isFlag xs := by
  induction ws with
  | nil => rfl
  | cons w ws ih =>
    rw [List.cons_append, groups_word (h w List.mem_cons_self), ih fun v hv => h v (List.mem_cons_of_mem _ hv)]

theorem lead_render {gs : List (Opt α)} (h : ∀ g ∈ gs, g.Formed isFlag) : lead isFlag (render gs) = [] := by
  cases gs with
  | nil => rfl
  | cons g gs => exact lead_flag (h g List.mem_cons_self).flag _

theorem groups_render {gs : List (Opt α)} (h : ∀ g ∈ gs, g.Formed isFlag) : groups isFlag (render gs) = gs := by
  induction gs with
  | nil => rfl
  | cons g gs ih =>
    obtain ⟨hflag, hwords⟩ := h g List.mem_cons_self
    have hrest : ∀ g' ∈ gs, g'.Formed isFlag := fun g' hg' => h g' (List.mem_cons_of_mem _ hg')
    rw [render_cons, groups_flag hflag, lead_append_words hwords, groups_append_words hwords, lead_render hrest,
      ih hrest, List.append_nil]

theorem lead_append (xs : List α) {ys : List α} (h : lead isFlag ys = []) :
    lead isFlag (xs ++ ys) = lead isFlag xs := by
  induction xs with
  | nil => exact h
  | cons x xs ih =>
    cases hx : isFlag x with
    | false => rw [List.cons_append, lead_word hx, lead_word hx, ih]
    | true => rw [List.cons_append, lead_flag hx, lead_flag hx]

/-- No word stands before the first flag of the second, so the last group of the first stays as it is. -/
theorem groups_append (xs : List α) {ys : List α} (h : lead isFlag ys = []) :
    groups isFlag (xs ++ ys) = groups isFlag xs ++ groups isFlag ys := by
  induction xs with
  | nil => rfl
  | cons x xs ih =>
    cases hx : isFlag x with
    | false => rw [List.cons_append, groups_word hx, groups_word hx, ih]
    | true => rw [List.cons_append, groups_flag hx, groups_flag hx, ih, lead_append xs h, List.cons_append]

/-- A token that is a flag begins a group. -/
theorem exists_group {xs : List α} {x : α} (hx : x ∈ xs) (h : isFlag x = true) :
    ∃ g ∈ groups isFlag xs, g.flag = x := by
  rw [← @render_groups α isFlag xs] at hx
  rcases List.mem_append.mp hx with hx | hx
  · rw [lead_words xs x hx] at h
    cases h
  · obtain ⟨g, hg, hxg⟩ := List.mem_flatMap.mp hx
    rcases List.mem_cons.mp hxg with rfl | hxg
    · exact ⟨g, hg, rfl⟩
    · rw [(formed_of_mem hg).words x hxg] at h
      cases h

theorem flag_mem {xs : List α} {g : Opt α} (hg : g ∈ groups isFlag xs) : g.flag ∈ xs := by
  rw [← @render_groups α isFlag xs]
  exact List.mem_append_right _ (List.mem_flatMap.mpr ⟨g, hg, List.mem_cons_self⟩)

/-! ## Items of one key -/

theorem perm_of_filter_key {β κ : Type} [DecidableEq β] [DecidableEq κ] (keyOf : β → κ) {as bs : List β}
    (h : ∀ key, as.filter (fun a => keyOf a = key) = bs.filter (fun b => keyOf b = key)) : as.Perm bs := by
  rw [List.perm_iff_count]
  intro a
  have hcount : ∀ l : List β, (l.filter fun b => keyOf b = keyOf a).count a = l.count a :=
    fun l => List.count_filter (by simp)
  rw [← hcount as, h, hcount bs]

end Argv
end Ds4Spark
