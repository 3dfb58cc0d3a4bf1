import Mathlib.Data.List.TakeWhile
import Mathlib.Data.List.Basic
import EspNowGateway.Lib.LineLog

/-!
# URIs of a server

A URI `scheme://host:port/path` as bytes, and its parts. `Uri.split` goes from the front:
a scheme ends at its colon, a host at the first delimiter behind it, or at the closing
bracket when it opens with one, a port with its digits. It looks at delimiters only, and
takes every other byte as it comes.

A `Uri` carries what makes its parts separable, so `split` undoes `render`, and whatever
`split` returns was there in the text.
-/

/-- `:` -/
def Uri.colon : UInt8 := 58

/-- `/` -/
def Uri.slash : UInt8 := 47

/-- A byte of a name: none of `:/?#[]@`. -/
def Uri.isPlain (c : UInt8) : Bool := !([58, 47, 63, 35, 91, 93, 64] : List UInt8).contains c

/-- A byte of an address in brackets, which may have colons. -/
def Uri.isBracketed (c : UInt8) : Bool := c == Uri.colon || Uri.isPlain c

/-- A name, or an address in brackets. -/
def Uri.IsHost (s : List UInt8) : Prop :=
  (∀ c ∈ s, Uri.isPlain c) ∨ ∃ addr, s = 91 :: (addr ++ [93]) ∧ ∀ c ∈ addr, Uri.isBracketed c

/-- A URI of a server in its parts. -/
structure Uri where
  scheme : List UInt8
  host : List UInt8
  port : Nat
  path : List UInt8
  /-- A scheme ends at its colon. -/
  scheme_ok : Uri.colon ∉ scheme
  /-- A host ends at the delimiter behind it. -/
  host_ok : Uri.IsHost host
  /-- The path is absolute, if there is one. -/
  path_ok : path = [] ∨ path.head? = some Uri.slash

namespace Uri

/-! ## Ports -/

/-- A decimal digit. -/
def isDigit (c : UInt8) : Bool := 48 ≤ c && c ≤ 57

/-- The decimal digits of a number. -/
def digits (n : Nat) : List UInt8 := (Nat.toDigits 10 n).map fun c => UInt8.ofNat c.toNat

/-- The number that decimal digits stand for. -/
def ofDigits (ds : List UInt8) : Nat := ds.foldl (fun n d => 10 * n + (d.toNat - 48)) 0

theorem toNat_digit {c : Char} (h : c.isDigit) : (UInt8.ofNat c.toNat).toNat = c.toNat := by
  obtain ⟨_, hhi⟩ := Char.isDigit_iff_toNat.mp h
  rw [UInt8.toNat_ofNat']
  exact Nat.mod_eq_of_lt (Nat.lt_of_le_of_lt hhi (by decide))

theorem isDigit_of_mem_digits {n : Nat} {d : UInt8} (h : d ∈ digits n) : isDigit d := by
  obtain ⟨c, hc, rfl⟩ := List.mem_map.mp h
  have hdigit : c.isDigit := Nat.isDigit_of_mem_toDigits (by decide) (by decide) hc
  obtain ⟨hlo, hhi⟩ := Char.isDigit_iff_toNat.mp hdigit
  rw [isDigit, Bool.and_eq_true, decide_eq_true_eq, decide_eq_true_eq, UInt8.le_iff_toNat_le,
    UInt8.le_iff_toNat_le, toNat_digit hdigit]
  exact ⟨hlo, hhi⟩

theorem digits_ne_nil (n : Nat) : digits n ≠ [] := by
  rw [digits, ne_eq, List.map_eq_nil_iff]
  exact Nat.toDigits_ne_nil

theorem digits_length_le {n : Nat} (h : n < 100000) : (digits n).length ≤ 5 := by
  rw [digits, List.length_map]
  exact (Nat.length_toDigits_le_iff (by decide) (by decide)).mpr h

theorem ofDigits_digits (n : Nat) : ofDigits (digits n) = n := by
  have hfold : ∀ (cs : List Char) (acc : Nat), (∀ c ∈ cs, c.isDigit) →
      (cs.map fun c => UInt8.ofNat c.toNat).foldl (fun n d => 10 * n + (d.toNat - 48)) acc
        = Nat.ofDigitChars 10 cs acc := by
    intro cs
    induction cs with
    | nil => exact fun _ _ => rfl
    | cons c cs ih =>
        intro acc h
        rw [List.map_cons, List.foldl_cons, toNat_digit (h c (List.mem_cons_self ..)),
          ih _ fun d hd => h d (List.mem_cons_of_mem c hd)]
        rfl
  have hdigits : ∀ c ∈ Nat.toDigits 10 n, c.isDigit := fun c hc =>
    Nat.isDigit_of_mem_toDigits (by decide) (by decide) hc
  rw [ofDigits, digits, hfold _ 0 hdigits, Nat.ofDigitChars_ten_toDigits]

/-! ## Cutting at a byte that is not of the kind -/

/-- The end of what is taken from a text: nothing, or a byte of another kind. -/
def Stops (p : UInt8 → Bool) (text : List UInt8) : Prop := ∀ c ∈ text.head?, p c = false

theorem stops_cons {p : UInt8 → Bool} {c : UInt8} (h : p c = false) (rest : List UInt8) :
    Stops p (c :: rest) := by
  intro d hd
  cases hd
  exact h

theorem takeWhile_append_stops {p : UInt8 → Bool} {s rest : List UInt8} (hs : ∀ c ∈ s, p c)
    (hrest : Stops p rest) : (s ++ rest).takeWhile p = s := by
  rw [List.takeWhile_append_of_pos hs]
  rcases rest with _ | ⟨c, rest⟩
  · exact List.append_nil s
  · rw [List.takeWhile_cons_of_neg (by rw [hrest c rfl]; exact Bool.false_ne_true), List.append_nil]

theorem dropWhile_append_stops {p : UInt8 → Bool} {s rest : List UInt8} (hs : ∀ c ∈ s, p c)
    (hrest : Stops p rest) : (s ++ rest).dropWhile p = rest := by
  rw [List.dropWhile_append_of_pos hs]
  rcases rest with _ | ⟨c, rest⟩
  · rfl
  · exact List.dropWhile_cons_of_neg (by rw [hrest c rfl]; exact Bool.false_ne_true)

/-! ## Splitting -/

/-- A scheme, up to the first colon and the two slashes behind it. -/
def cutScheme (text : List UInt8) : Option ({ s : List UInt8 // colon ∉ s } × List UInt8) :=
  match text.dropWhile (· != colon) with
  | 58 :: 47 :: 47 :: rest =>
      some (⟨text.takeWhile (· != colon), fun h => by simpa using List.mem_takeWhile_imp h⟩, rest)
  | _ => none

/-- A host, up to the first delimiter, or to the bracket that closes it. -/
def cutHost (text : List UInt8) : Option ({ s : List UInt8 // IsHost s } × List UInt8) :=
  match text with
  | 91 :: inner =>
      match inner.dropWhile isBracketed with
      | 93 :: rest =>
          some (⟨91 :: (inner.takeWhile isBracketed ++ [93]),
            Or.inr ⟨_, rfl, fun _ h => List.mem_takeWhile_imp h⟩⟩, rest)
      | _ => none
  | _ =>
      some (⟨text.takeWhile isPlain, Or.inl fun _ h => List.mem_takeWhile_imp h⟩,
        text.dropWhile isPlain)

/-- A colon and the digits behind it. -/
def cutPort : List UInt8 → Option (Nat × List UInt8)
  | 58 :: text =>
      if text.takeWhile isDigit = [] then none
      else some (ofDigits (text.takeWhile isDigit), text.dropWhile isDigit)
  | _ => none

/-- A text in its parts. -/
def split (text : List UInt8) : Option Uri := do
  let (scheme, text) ← cutScheme text
  let (host, text) ← cutHost text
  let (port, path) ← cutPort text
  if h : path = [] ∨ path.head? = some slash then
    some ⟨scheme, host, port, path, scheme.2, host.2, h⟩
  else none

/-- Parts put together, whatever they are. -/
def join (scheme host : List UInt8) (port : Nat) (path : List UInt8) : List UInt8 :=
  scheme ++ colon :: slash :: slash :: (host ++ colon :: (digits port ++ path))

/-- The text that has these parts. -/
def render (u : Uri) : List UInt8 := join u.scheme u.host u.port u.path

/-! ### What is put together is taken apart -/

theorem cutScheme_append {s : List UInt8} (h : colon ∉ s) (rest : List UInt8) :
    cutScheme (s ++ colon :: slash :: slash :: rest) = some (⟨s, h⟩, rest) := by
  have hs : ∀ c ∈ s, c != colon := fun c hc => bne_iff_ne.mpr fun he => h (he ▸ hc)
  have hstop : Stops (· != colon) (colon :: slash :: slash :: rest) := stops_cons rfl _
  simp only [cutScheme, dropWhile_append_stops hs hstop, takeWhile_append_stops hs hstop]
  rfl

theorem cutHost_append {s : List UInt8} (h : IsHost s) (rest : List UInt8) :
    cutHost (s ++ colon :: rest) = some (⟨s, h⟩, colon :: rest) := by
  rcases id h with hname | ⟨addr, rfl, haddr⟩
  · have hstop : Stops isPlain (colon :: rest) := stops_cons rfl rest
    have hopen : ∀ inner, s ++ colon :: rest ≠ 91 :: inner := by
      intro inner he
      rcases s with _ | ⟨c, s⟩
      · cases he
      · obtain ⟨rfl, _⟩ := List.cons.inj he
        exact absurd (hname 91 (List.mem_cons_self ..)) (by decide)
    unfold cutHost
    split
    · next inner he => exact absurd he (hopen inner)
    · simp only [takeWhile_append_stops hname hstop, dropWhile_append_stops hname hstop]
  · have hstop : Stops isBracketed (93 :: colon :: rest) := stops_cons rfl _
    simp only [cutHost, List.cons_append, List.append_assoc, List.nil_append,
      takeWhile_append_stops haddr hstop, dropWhile_append_stops haddr hstop]

theorem cutPort_append {n : Nat} {path : List UInt8} (h : path = [] ∨ path.head? = some slash) :
    cutPort (colon :: (digits n ++ path)) = some (n, path) := by
  have hstop : Stops isDigit path := by
    rcases path with _ | ⟨c, path⟩
    · intro c hc
      cases hc
    · rcases h with h | h
      · cases h
      · cases h
        exact stops_cons rfl path
  have hdigits : ∀ d ∈ digits n, isDigit d := fun _ => isDigit_of_mem_digits
  simp only [cutPort, colon, takeWhile_append_stops hdigits hstop,
    dropWhile_append_stops hdigits hstop, if_neg (digits_ne_nil n), ofDigits_digits]

/-- **The parts of a URI are read back from its text.** -/
theorem split_render (u : Uri) : split (render u) = some u := by
  rw [split, render, join, cutScheme_append u.scheme_ok, Option.bind_eq_bind, Option.bind_some]
  dsimp only
  rw [cutHost_append u.host_ok, Option.bind_eq_bind, Option.bind_some]
  dsimp only
  rw [cutPort_append u.path_ok, Option.bind_eq_bind, Option.bind_some]
  exact dif_pos u.path_ok

/-! ### What is taken apart was there -/

theorem of_cutScheme {text rest : List UInt8} {s : { s : List UInt8 // colon ∉ s }}
    (h : cutScheme text = some (s, rest)) : text = s ++ colon :: slash :: slash :: rest := by
  unfold cutScheme at h
  split at h
  · next rest' hdrop =>
      cases h
      exact (List.takeWhile_append_dropWhile.symm.trans (congrArg _ hdrop))
  · cases h

theorem of_cutHost {text rest : List UInt8} {s : { s : List UInt8 // IsHost s }}
    (h : cutHost text = some (s, rest)) : text = s ++ rest := by
  unfold cutHost at h
  split at h
  · next inner =>
      split at h
      · next rest' hdrop =>
          cases h
          rw [List.cons_append, List.append_assoc, List.singleton_append, ← hdrop,
            List.takeWhile_append_dropWhile]
      · cases h
  · cases h
    exact List.takeWhile_append_dropWhile.symm

theorem of_cutPort {text path : List UInt8} {n : Nat} (h : cutPort text = some (n, path)) :
    ∃ ds, text = colon :: (ds ++ path) ∧ (∀ d ∈ ds, isDigit d) ∧ ofDigits ds = n := by
  unfold cutPort at h
  split at h
  · next rest =>
      split at h
      · cases h
      · cases h
        exact ⟨rest.takeWhile isDigit, by rw [List.takeWhile_append_dropWhile]; rfl,
          fun _ hd => List.mem_takeWhile_imp hd, rfl⟩
  · cases h

/-- **Every part that is read was in the text, in its place.** -/
theorem of_split {text : List UInt8} {u : Uri} (h : split text = some u) :
    ∃ ds, text = u.scheme ++ colon :: slash :: slash :: (u.host ++ colon :: (ds ++ u.path))
      ∧ (∀ d ∈ ds, isDigit d) ∧ ofDigits ds = u.port := by
  obtain ⟨⟨scheme, text₁⟩, hscheme, h⟩ := Option.bind_eq_some_iff.mp h
  obtain ⟨⟨host, text₂⟩, hhost, h⟩ := Option.bind_eq_some_iff.mp h
  obtain ⟨⟨port, path⟩, hport, h⟩ := Option.bind_eq_some_iff.mp h
  dsimp only at h hport hhost
  split at h
  · cases h
    obtain ⟨ds, htext₂, hdigits, hvalue⟩ := of_cutPort hport
    exact ⟨ds, by rw [of_cutScheme hscheme, of_cutHost hhost, htext₂], hdigits, hvalue⟩
  · cases h

theorem colon_not_mem_of_isDigit {ds : List UInt8} (h : ∀ d ∈ ds, isDigit d) : colon ∉ ds :=
  fun hmem => absurd (h colon hmem) (by decide)

/-- The host in front of the last colon. -/
theorem host_eq_of_colon {s s' ds ds' : List UInt8} (h : ∀ d ∈ ds, isDigit d)
    (h' : ∀ d ∈ ds', isDigit d) (heq : s' ++ colon :: ds' = s ++ colon :: ds) : s' = s := by
  rcases LineLog.append_sep_eq_iff.mp heq with ⟨hs, _⟩ | ⟨u, _, hds⟩ | ⟨u, _, hds⟩
  · exact hs
  · refine absurd ?_ (colon_not_mem_of_isDigit h')
    rw [hds]
    exact List.mem_append_right _ (List.mem_cons_self ..)
  · refine absurd ?_ (colon_not_mem_of_isDigit h)
    rw [hds]
    exact List.mem_append_right _ (List.mem_cons_self ..)

/-- **Parts put together are read back just when what stands for the host is one.** -/
theorem split_join_iff {scheme s host path : List UInt8} {n : Nat} (hscheme : colon ∉ scheme)
    (hpath : path = [] ∨ path.head? = some slash) :
    (∃ u, split (join scheme s n path) = some u
        ∧ u.scheme = scheme ∧ u.host = host ∧ u.port = n ∧ u.path = path)
      ↔ host = s ∧ IsHost s := by
  refine ⟨fun h => ?_, fun h => ?_⟩
  · rcases h with ⟨u, hsplit, rfl, rfl, rfl, rfl⟩
    obtain ⟨ds, htext, hdigits, _⟩ := of_split hsplit
    have hauthority : s ++ colon :: digits u.port = u.host ++ colon :: ds := by
      have hrest := List.append_cancel_left htext
      simp only [List.cons.injEq, true_and] at hrest
      rw [← List.cons_append, ← List.cons_append, ← List.append_assoc, ← List.append_assoc] at hrest
      exact List.append_cancel_right hrest
    have hs : s = u.host := host_eq_of_colon hdigits (fun _ => isDigit_of_mem_digits) hauthority
    exact ⟨hs.symm, hs ▸ u.host_ok⟩
  · rcases h with ⟨rfl, hhost⟩
    exact ⟨_, split_render ⟨scheme, host, n, path, hscheme, hhost, hpath⟩, rfl, rfl, rfl, rfl⟩

end Uri
