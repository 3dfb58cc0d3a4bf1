import Mathlib.Data.List.Basic
import Mathlib.Data.List.Count

/-!
# Logs with a line for each record

A writer renders one record after the other and puts each on a line of its own, at the
end of a text; a record that cannot be rendered stops it. `Faithful` is what such a log
is kept for: the writer gets through, every record has its line, and the lines tell
which records they were.

`faithful_iff` says that this is a question about single records. The lines of a whole
text cannot be mistaken for others as long as no record breaks its line.
-/

namespace LineLog

/-! ## Lines -/

section

variable {α : Type}

/-- A text of lines. -/
def unlines (nl : α) (ls : List (List α)) : List α := ls.flatMap (· ++ [nl])

theorem unlines_cons (nl : α) (l : List α) (ls : List (List α)) :
    unlines nl (l :: ls) = l ++ nl :: unlines nl ls := by
  rw [unlines, List.flatMap_cons, List.append_assoc]
  rfl

/-- A line put to the end of a text, and the lines behind it. -/
theorem append_unlines_cons (nl : α) (text l : List α) (ls : List (List α)) :
    text ++ unlines nl (l :: ls) = text ++ l ++ [nl] ++ unlines nl ls := by
  rw [unlines_cons, List.append_assoc, List.append_assoc, List.singleton_append]

/-- Two ways to cut a text at a separator: the same, or one of them later. -/
theorem append_sep_eq_iff {sep : α} {a b a' b' : List α} :
    a' ++ sep :: b' = a ++ sep :: b
      ↔ (a' = a ∧ b' = b) ∨ (∃ u, a = a' ++ sep :: u ∧ b' = u ++ sep :: b)
        ∨ ∃ u, a' = a ++ sep :: u ∧ b = u ++ sep :: b' := by
  refine ⟨fun h => ?_, fun h => ?_⟩
  · rcases List.append_eq_append_iff.mp h with ⟨u, ha, hb⟩ | ⟨u, ha, hb⟩
    · rcases u with _ | ⟨c, u⟩
      · exact Or.inl ⟨(ha.trans (List.append_nil a')).symm, (List.cons.inj hb).2⟩
      · obtain ⟨rfl, hrest⟩ := List.cons.inj hb
        exact Or.inr (Or.inl ⟨u, ha, hrest⟩)
    · rcases u with _ | ⟨c, u⟩
      · exact Or.inl ⟨ha.trans (List.append_nil a), (List.cons.inj hb).2.symm⟩
      · obtain ⟨rfl, hrest⟩ := List.cons.inj hb
        exact Or.inr (Or.inr ⟨u, ha, hrest⟩)
  · rcases h with ⟨rfl, rfl⟩ | ⟨u, rfl, rfl⟩ | ⟨u, rfl, rfl⟩
    · rfl
    · rw [List.append_assoc, List.cons_append]
    · rw [List.append_assoc, List.cons_append]

variable [DecidableEq α]

/-- The complete lines of a text whose first line has begun with `acc`. -/
def linesFrom (nl : α) (acc : List α) : List α → List (List α)
  | [] => []
  | c :: text => if c = nl then acc :: linesFrom nl [] text else linesFrom nl (acc ++ [c]) text

/-- The complete lines of a text. -/
def lines (nl : α) (text : List α) : List (List α) := linesFrom nl [] text

variable {nl : α}

theorem linesFrom_append {acc l : List α} (h : nl ∉ l) (rest : List α) :
    linesFrom nl acc (l ++ nl :: rest) = (acc ++ l) :: lines nl rest := by
  induction l generalizing acc with
  | nil =>
      rw [List.nil_append, linesFrom, if_pos rfl, List.append_nil]
      rfl
  | cons c l ih =>
      have hc : c ≠ nl := fun he => h (he ▸ List.mem_cons_self ..)
      rw [List.cons_append, linesFrom, if_neg hc, ih fun hl => h (List.mem_cons_of_mem c hl),
        List.append_assoc]
      rfl

theorem lines_unlines {ls : List (List α)} (h : ∀ l ∈ ls, nl ∉ l) :
    lines nl (unlines nl ls) = ls := by
  induction ls with
  | nil => rfl
  | cons l ls ih =>
      rw [unlines_cons, lines, linesFrom_append (h l (List.mem_cons_self ..)), List.nil_append,
        ih fun l' hl' => h l' (List.mem_cons_of_mem l hl')]

theorem not_mem_of_mem_linesFrom {acc text l : List α} (hacc : nl ∉ acc)
    (h : l ∈ linesFrom nl acc text) : nl ∉ l := by
  induction text generalizing acc with
  | nil => cases h
  | cons c text ih =>
      rw [linesFrom] at h
      split at h
      · rcases List.mem_cons.mp h with rfl | hrest
        · exact hacc
        · exact ih List.not_mem_nil hrest
      · next hc =>
          refine ih ?_ h
          rw [List.mem_append, List.mem_singleton]
          exact fun hmem => hmem.elim hacc fun he => hc he.symm

/-- A text has just the lines it was made of when none of them holds a line break. -/
theorem lines_unlines_iff {ls : List (List α)} :
    lines nl (unlines nl ls) = ls ↔ ∀ l ∈ ls, nl ∉ l := by
  refine ⟨fun h l hl => ?_, lines_unlines⟩
  rw [← h] at hl
  exact not_mem_of_mem_linesFrom List.not_mem_nil hl

theorem count_unlines (ls : List (List α)) :
    (unlines nl ls).count nl = ls.length + ls.flatten.count nl := by
  induction ls with
  | nil => rfl
  | cons l ls ih =>
      rw [unlines_cons, List.count_append, List.count_cons_self, ih, List.length_cons,
        List.flatten_cons, List.count_append]
      omega

theorem count_flatten_eq_zero_iff {ls : List (List α)} :
    ls.flatten.count nl = 0 ↔ ∀ l ∈ ls, nl ∉ l := by
  rw [List.count_eq_zero, List.mem_flatten]
  refine ⟨fun h l hl hmem => h ⟨l, hl, hmem⟩, fun h hmem => ?_⟩
  rcases hmem with ⟨l, hl, hmem⟩
  exact h l hl hmem

/-- So many lines, and no more line breaks than that: there is only one way to read them. -/
theorem unlines_unique {ls ls' : List (List α)} (h : ∀ l ∈ ls, nl ∉ l)
    (hlen : ls'.length = ls.length) (heq : unlines nl ls' = unlines nl ls) : ls' = ls := by
  have hnone := count_flatten_eq_zero_iff.mpr h
  have hcount : (unlines nl ls').count nl = _ := count_unlines ls'
  rw [heq, count_unlines, hnone, hlen] at hcount
  have hfree : ∀ l ∈ ls', nl ∉ l := count_flatten_eq_zero_iff.mp (by omega)
  rw [← lines_unlines hfree, heq, lines_unlines h]

end

/-! ## The writer -/

section

variable {α ρ κ : Type}

/-- Write records to the end of a text, one after the other. -/
def write (nl : α) (render : ρ → Option (List α)) (text : List α) (rs : List ρ) : Option (List α) :=
  rs.foldlM (fun text r => (render r).map fun l => text ++ l ++ [nl]) text

variable {nl : α} {render : ρ → Option (List α)} {key : ρ → κ}

/-- The writer gets through when every record can be rendered, and adds the lines. -/
theorem write_eq_some_iff {text out : List α} {rs : List ρ} :
    write nl render text rs = some out
      ↔ ∃ ls, rs.map render = ls.map some ∧ out = text ++ unlines nl ls := by
  induction rs generalizing text with
  | nil =>
      refine ⟨fun h => ?_, fun h => ?_⟩
      · cases h
        exact ⟨[], rfl, (List.append_nil _).symm⟩
      · rcases h with ⟨ls, hls, hout⟩
        obtain rfl : ls = [] := List.map_eq_nil_iff.mp hls.symm
        exact congrArg some (hout.trans (List.append_nil text)).symm
  | cons r rs ih =>
      rw [write, List.foldlM_cons]
      show ((render r).map fun l => text ++ l ++ [nl]).bind (write nl render · rs) = some out ↔ _
      cases hr : render r with
      | none =>
          refine iff_of_false (fun h => by cases h) fun h => ?_
          rcases h with ⟨_ | ⟨l, ls⟩, hls, _⟩
          · cases hls
          · rw [List.map_cons, List.map_cons, hr] at hls
            cases (List.cons.inj hls).1
      | some l =>
          rw [Option.map_some, Option.bind_some, ih]
          refine ⟨fun h => ?_, fun h => ?_⟩
          · rcases h with ⟨ls, hls, rfl⟩
            refine ⟨l :: ls, ?_, (append_unlines_cons nl text l ls).symm⟩
            rw [List.map_cons, List.map_cons, hr, hls]
          · rcases h with ⟨_ | ⟨l', ls⟩, hls, rfl⟩
            · cases hls
            · rw [List.map_cons, List.map_cons, hr] at hls
              obtain ⟨hl, hrest⟩ := List.cons.inj hls
              cases hl
              exact ⟨ls, hrest, append_unlines_cons nl text l ls⟩

/-- A record with a line of its own, that of no other record with the same key. -/
def Told (nl : α) (render : ρ → Option (List α)) (key : ρ → κ) (r : ρ) : Prop :=
  ∃ l, render r = some l ∧ nl ∉ l ∧ ∀ r', key r' = key r → render r' = some l → r' = r

/-- Records that are told by their lines are told by them in a row. -/
theorem eq_of_map_render {rs rs' : List ρ} (h : ∀ r ∈ rs, Told nl render key r)
    (hkey : rs'.map key = rs.map key) (hrender : rs'.map render = rs.map render) : rs' = rs := by
  induction rs generalizing rs' with
  | nil => exact List.map_eq_nil_iff.mp hkey
  | cons r rs ih =>
      rcases rs' with _ | ⟨r', rs'⟩
      · cases hkey
      · obtain ⟨hk, hks⟩ := List.cons.inj hkey
        obtain ⟨hr, hrs⟩ := List.cons.inj hrender
        obtain ⟨l, hl, _, hunique⟩ := h r (List.mem_cons_self ..)
        rw [hunique r' hk (hr.trans hl), ih (fun q hq => h q (List.mem_cons_of_mem r hq)) hks hrs]

theorem exists_lines {rs : List ρ} (h : ∀ r ∈ rs, Told nl render key r) :
    ∃ ls : List (List α), rs.map render = ls.map some ∧ ∀ l ∈ ls, nl ∉ l := by
  induction rs with
  | nil => exact ⟨[], rfl, fun _ hl => absurd hl List.not_mem_nil⟩
  | cons r rs ih =>
      obtain ⟨ls, hls, hfree⟩ := ih fun q hq => h q (List.mem_cons_of_mem r hq)
      obtain ⟨l, hl, hnl, _⟩ := h r (List.mem_cons_self ..)
      refine ⟨l :: ls, by rw [List.map_cons, hl, hls, List.map_cons], fun l' hl' => ?_⟩
      rcases List.mem_cons.mp hl' with rfl | hmem
      · exact hnl
      · exact hfree l' hmem

variable [DecidableEq α]

/--
The writer gets through, each record has its line, in order, and no other records
with the same keys would have left the same text.
-/
def Faithful (nl : α) (render : ρ → Option (List α)) (key : ρ → κ) (rs : List ρ) : Prop :=
  ∀ text, ∃ new, write nl render text rs = some (text ++ new)
    ∧ rs.map render = (lines nl new).map some
    ∧ ∀ rs', rs'.map key = rs.map key → write nl render text rs' = some (text ++ new) → rs' = rs

theorem told_of_faithful {rs : List ρ} (h : Faithful nl render key rs) {r : ρ} (hr : r ∈ rs) :
    Told nl render key r := by
  obtain ⟨new, hwrite, hlines, hunique⟩ := h []
  obtain ⟨ls, hls, hnew⟩ := write_eq_some_iff.mp hwrite
  obtain rfl : new = unlines nl ls := List.append_cancel_left hnew
  have hsame : lines nl (unlines nl ls) = ls :=
    List.map_injective_iff.mpr (fun _ _ => Option.some.inj) (hlines.symm.trans hls)
  obtain ⟨l, hl, hrender⟩ : ∃ l ∈ ls, some l = render r :=
    List.mem_map.mp (hls ▸ List.mem_map_of_mem hr)
  refine ⟨l, hrender.symm, lines_unlines_iff.mp hsame l hl, fun r' hkey hr' => ?_⟩
  -- put `r'` in the place of `r`
  obtain ⟨before, after, rfl⟩ := List.append_of_mem hr
  have hkeys : (before ++ r' :: after).map key = (before ++ r :: after).map key := by
    rw [List.map_append, List.map_cons, hkey, List.map_append, List.map_cons]
  have hrenders : (before ++ r' :: after).map render = ls.map some := by
    rw [← hls, List.map_append, List.map_cons, hr', hrender, List.map_append, List.map_cons]
  have heq := hunique _ hkeys (write_eq_some_iff.mpr ⟨ls, hrenders, rfl⟩)
  exact (List.cons.inj (List.append_cancel_left heq)).1

theorem faithful_of_told {rs : List ρ} (h : ∀ r ∈ rs, Told nl render key r) :
    Faithful nl render key rs := by
  obtain ⟨ls, hls, hfree⟩ := exists_lines h
  intro text
  refine ⟨unlines nl ls, write_eq_some_iff.mpr ⟨ls, hls, rfl⟩, ?_, ?_⟩
  · rw [lines_unlines hfree, hls]
  · intro rs' hkeys hwrite
    obtain ⟨ls', hls', heq⟩ := write_eq_some_iff.mp hwrite
    have hlen : ls'.length = ls.length := by
      have h₁ := congrArg List.length hls
      have h₂ := congrArg List.length hls'
      have h₃ := congrArg List.length hkeys
      simp only [List.length_map] at h₁ h₂ h₃
      omega
    obtain rfl : ls' = ls := unlines_unique hfree hlen (List.append_cancel_left heq).symm
    exact eq_of_map_render h hkeys (hls'.trans hls.symm)

/-- **A log is faithful exactly when every record in it is told by its own line.** -/
theorem faithful_iff {rs : List ρ} :
    Faithful nl render key rs ↔ ∀ r ∈ rs, Told nl render key r :=
  ⟨fun h _ hr => told_of_faithful h hr, faithful_of_told⟩

end

end LineLog
