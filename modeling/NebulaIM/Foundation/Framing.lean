import Mathlib.Data.List.Basic
import Mathlib.Data.List.Induction

/-!
# Decoders over a byte stream

A decoder looks at the front of a buffer and finds a whole frame, an error, or
too little to tell.  What it has found does not change when more input arrives.
`scan` takes frames for as long as there are any; `scan_append` says that the
input may be scanned in pieces, so that the way a stream is split into reads
does not matter.
-/

namespace Foundation.Framing

variable {n : Nat}

/-- What stands at the front of a buffer. -/
inductive Front (β τ ε : Type) where
  | incomplete
  | frame (item : τ) (rest : List β)
  | bad (error : ε)

structure Decoder (β τ ε : Type) where
  front : List β → Front β τ ε
  front_nil : front [] = .incomplete
  frame_shrinks : ∀ {input item rest}, front input = .frame item rest → rest.length < input.length
  frame_append : ∀ {input item rest} (more : List β), front input = .frame item rest →
      front (input ++ more) = .frame item (rest ++ more)
  bad_append : ∀ {input error} (more : List β),
    front input = .bad error → front (input ++ more) = .bad error

namespace Decoder

variable {β τ ε : Type} (d : Decoder β τ ε)

/-- The frames at the front of the input, and the input after them. -/
def scan (input : List β) : List τ × List β :=
  match h : d.front input with
  | .frame item rest =>
    have := d.frame_shrinks h
    (item :: (scan rest).1, (scan rest).2)
  | _ => ([], input)
termination_by input.length

variable {d} {input rest : List β} {item : τ}

theorem scan_frame (h : d.front input = .frame item rest) :
    d.scan input = (item :: (d.scan rest).1, (d.scan rest).2) := by
  rw [scan]
  split
  · next hframe =>
    rw [h] at hframe
    cases hframe
    rfl
  · next hnone => exact absurd h (hnone item rest)

theorem scan_of_not_frame (h : ∀ item rest, d.front input ≠ .frame item rest) :
    d.scan input = ([], input) := by
  rw [scan]
  split
  · next item rest hframe => exact absurd hframe (h item rest)
  · rfl

/-- Induction over the frames at the front of the input. -/
theorem scan_induction {motive : List β → Prop}
    (frame : ∀ {input item rest}, d.front input = .frame item rest → motive rest → motive input)
    (stop : ∀ {input}, (∀ item rest, d.front input ≠ .frame item rest) → motive input)
    (input : List β) : motive input := by
  induction hlength : input.length using Nat.strongRecOn generalizing input with
  | ind n ih =>
    cases hfront : d.front input with
    | frame item rest =>
      have hshrinks := d.frame_shrinks hfront
      exact frame hfront (ih rest.length (by omega) rest rfl)
    | incomplete | bad error => exact stop (by simp [hfront])

theorem front_scan (input : List β) (item : τ) (rest : List β) :
    d.front (d.scan input).2 ≠ .frame item rest := by
  induction input using scan_induction (d := d) with
  | frame hframe ih => rwa [scan_frame hframe]
  | stop hstop => rw [scan_of_not_frame hstop]; exact hstop item rest

theorem scan_append (input more : List β) : d.scan (input ++ more) =
      ((d.scan input).1 ++ (d.scan ((d.scan input).2 ++ more)).1,
        (d.scan ((d.scan input).2 ++ more)).2) := by
  induction input using scan_induction (d := d) with
  | frame hframe ih =>
    rw [scan_frame (d.frame_append more hframe), scan_frame hframe, ih]
    rfl
  | stop hstop => rw [scan_of_not_frame hstop]; rfl

theorem scan_nil : d.scan [] = ([], []) := scan_of_not_frame (by simp [d.front_nil])

/-- A part of a stream of whole frames is scanned to frames and the beginning of
the next one. -/
theorem scan_part {part more : List β} {items : List τ} (h : d.scan (part ++ more) = (items, [])) :
    d.front (d.scan part).2 = .incomplete ∧
      items = (d.scan part).1 ++ (d.scan ((d.scan part).2 ++ more)).1 ∧
      (d.scan ((d.scan part).2 ++ more)).2 = [] := by
  rw [scan_append] at h
  obtain ⟨hitems, hrest⟩ := Prod.mk.inj h
  refine ⟨?_, hitems.symm, hrest⟩
  cases hfront : d.front (d.scan part).2 with
  | incomplete => rfl
  | frame item rest => exact absurd hfront (front_scan part item rest)
  | bad error =>
    have hbad := d.bad_append more hfront
    rw [scan_of_not_frame (by simp [hbad])] at hrest
    rw [(List.append_eq_nil_iff.mp hrest).1, d.front_nil] at hfront
    cases hfront

theorem front_part {part more : List β} (h : d.front (part ++ more) = .frame item [])
    (hmore : more ≠ []) : d.front part = .incomplete := by
  cases hfront : d.front part with
  | incomplete => rfl
  | frame found rest =>
    rw [d.frame_append more hfront] at h
    obtain ⟨_, hrest⟩ := Front.frame.inj h
    exact absurd (List.append_eq_nil_iff.mp hrest).2 hmore
  | bad error =>
    rw [d.bad_append more hfront] at h
    cases h

end Decoder

/-! ## Parsers

A parser reads one item piece by piece.  The combinators keep it stable: an
answer that did not need more input does not change when more arrives. -/

structure Parser (β ε α : Type) where
  run : List β → Front β α ε

namespace Parser

variable {β ε α γ : Type}

instance : Monad (Parser β ε) where
  pure value := ⟨fun input => .frame value input⟩
  bind p f :=
    ⟨fun input =>
      match p.run input with
      | .incomplete => .incomplete
      | .frame value rest => (f value).run rest
      | .bad error => .bad error⟩

def fail (error : ε) : Parser β ε α := ⟨fun _ => .bad error⟩

def next : Parser β ε β where
  run
    | [] => .incomplete
    | value :: rest => .frame value rest

def take (n : Nat) : Parser β ε (List β) where
  run input :=
    if input.length < n then .incomplete
    else .frame (input.take n) (input.drop n)

@[simp] theorem run_pure (value : α) (input : List β) :
    (pure value : Parser β ε α).run input = .frame value input := rfl

@[simp] theorem run_fail (error : ε) (input : List β) :
    (fail error : Parser β ε α).run input = .bad error := rfl

@[simp] theorem run_next_bind (f : β → Parser β ε γ) (value : β)
    (rest : List β) : (next >>= f).run (value :: rest) = (f value).run rest := rfl

variable {f : α → Parser β ε γ} {p : Parser β ε α}

theorem run_bind {input rest : List β} {value : α} (h : p.run input = .frame value rest) :
    (p >>= f).run input = (f value).run rest := by
  simp only [bind, h]

theorem run_take {front : List β} (rest : List β) (h : front.length = n) :
    (take n : Parser β ε (List β)).run (front ++ rest) = .frame front rest := by
  subst h
  simp only [take]
  rw [if_neg (by rw [List.length_append]; omega), List.take_left, List.drop_left]

theorem run_bind_eq_frame
    {input rest : List β} {item : γ} (h : (p >>= f).run input = .frame item rest) :
    ∃ value middle, p.run input = .frame value middle ∧
      (f value).run middle = .frame item rest := by
  cases hfirst : p.run input with
  | frame value middle => exact ⟨value, middle, rfl, run_bind hfirst ▸ h⟩
  | _ => simp [Bind.bind, hfirst] at h

theorem run_bind_eq_incomplete {input : List β} (h : (p >>= f).run input = .incomplete) :
    p.run input = .incomplete ∨ ∃ value middle,
      p.run input = .frame value middle ∧ (f value).run middle = .incomplete := by
  cases hfirst : p.run input with
  | incomplete => exact .inl rfl
  | frame value middle => exact .inr ⟨value, middle, rfl, run_bind hfirst ▸ h⟩
  | bad error => simp [Bind.bind, hfirst] at h

theorem run_take_eq_incomplete {input : List β}
    (h : (take n : Parser β ε (List β)).run input = .incomplete) : input.length < n := by
  simp only [take] at h
  split at h
  · assumption
  · cases h

theorem run_take_eq_frame {input front rest : List β}
    (h : (take n : Parser β ε (List β)).run input = .frame front rest) :
    input = front ++ rest ∧ front.length = n := by
  simp only [take] at h
  split at h <;> cases h
  next hlong =>
    refine ⟨(List.take_append_drop n input).symm, ?_⟩
    rw [List.length_take]
    omega

theorem run_next_eq_frame {input rest : List β} {first : β}
    (h : (next : Parser β ε β).run input = .frame first rest) :
    input = first :: rest := by
  cases input with
  | nil => cases h
  | cons value tail =>
    cases h
    rfl

/-- More input only extends what is left over. -/
structure Stable (p : Parser β ε α) : Prop where
  shrinks : ∀ {input value rest}, p.run input = .frame value rest → rest.length ≤ input.length
  frame_append : ∀ {input value rest} (more : List β), p.run input = .frame value rest →
      p.run (input ++ more) = .frame value (rest ++ more)
  bad_append : ∀ {input error} (more : List β),
    p.run input = .bad error → p.run (input ++ more) = .bad error

namespace Stable

theorem pure (value : α) : Stable (pure value : Parser β ε α) where
  shrinks h := by cases h; exact Nat.le_refl _
  frame_append more h := by cases h; rfl
  bad_append more h := by cases h

theorem fail (error : ε) : Stable (fail error : Parser β ε α) where
  shrinks h := by cases h
  frame_append more h := by cases h
  bad_append more h := by cases h; rfl

theorem next : Stable (next : Parser β ε β) := by
  constructor
  · intro input value rest h
    cases input with
    | nil => cases h
    | cons first tail => cases h; simp
  · intro input value rest more h
    cases input with
    | nil => cases h
    | cons first tail => cases h; rfl
  · intro input error more h
    cases input <;> cases h

theorem take (n : Nat) : Stable (take n : Parser β ε (List β)) := by
  constructor
  · intro input value rest h
    simp only [Parser.take] at h
    split at h <;> cases h
    simp
  · intro input value rest more h
    simp only [Parser.take] at h ⊢
    split at h <;> cases h
    next hlong =>
      have hle : n ≤ input.length := Nat.le_of_not_lt hlong
      rw [if_neg (by rw [List.length_append]; omega),
        List.take_append_of_le_length hle, List.drop_append_of_le_length hle]
  · intro input error more h
    simp only [Parser.take] at h
    split at h <;> cases h

theorem bind (hp : Stable p) (hf : ∀ value, Stable (f value)) : Stable (p >>= f) := by
  constructor
  · intro input value rest h
    cases hfirst : p.run input with
    | frame first middle =>
      rw [run_bind hfirst] at h
      exact Nat.le_trans ((hf first).shrinks h) (hp.shrinks hfirst)
    | _ => simp [Bind.bind, hfirst] at h
  · intro input value rest more h
    cases hfirst : p.run input with
    | frame first middle =>
      rw [run_bind hfirst] at h
      rw [run_bind (hp.frame_append more hfirst)]
      exact (hf first).frame_append more h
    | _ => simp [Bind.bind, hfirst] at h
  · intro input error more h
    cases hfirst : p.run input with
    | frame first middle =>
      rw [run_bind hfirst] at h
      rw [run_bind (hp.frame_append more hfirst)]
      exact (hf first).bad_append more h
    | bad found =>
      simp only [Bind.bind, hfirst] at h
      simp only [Bind.bind, hp.bad_append more hfirst]
      exact h
    | incomplete => simp [Bind.bind, hfirst] at h

theorem ite {condition : Prop} [Decidable condition] {p q : Parser β ε α}
    (hp : Stable p) (hq : Stable q) :
    Stable (if condition then p else q) := by
  split
  · exact hp
  · exact hq

end Stable

/-- A stable parser that takes at least one element decodes a stream. -/
def toDecoder (f : β → Parser β ε α) (h : ∀ first, Stable (f first)) : Decoder β α ε where
  front := (next >>= f).run
  front_nil := rfl
  frame_shrinks {input} _ _ hframe := by
    cases input with
    | nil => cases hframe
    | cons first rest => exact Nat.lt_succ_of_le ((h first).shrinks hframe)
  frame_append more := (Stable.next.bind h).frame_append more
  bad_append more := (Stable.next.bind h).bad_append more

@[simp] theorem toDecoder_front_cons (f : β → Parser β ε α)
    (h : ∀ first, Stable (f first)) (first : β) (rest : List β) :
    (toDecoder f h).front (first :: rest) = (f first).run rest := rfl

end Parser

/-! ## Codecs -/

/-- A decoder of the encodings of its valid items. -/
structure Codec (β τ ε : Type) extends Decoder β τ ε where
  Valid : τ → Prop
  encode : τ → List β
  front_encode : ∀ {item} (rest : List β), Valid item →
    front (encode item ++ rest) = .frame item rest
  frame_encode : ∀ {input item rest}, front input = .frame item rest →
    Valid item ∧ input = encode item ++ rest

namespace Codec

/-- Encodings that are found again make the frames of a decoder stable. -/
def ofFront {β τ ε : Type} (front : List β → Front β τ ε) (Valid : τ → Prop)
    (encode : τ → List β) (encode_ne_nil : ∀ item, encode item ≠ [])
    (front_nil : front [] = .incomplete)
    (front_encode : ∀ {item} (rest : List β), Valid item →
      front (encode item ++ rest) = .frame item rest)
    (frame_encode : ∀ {input item rest}, front input = .frame item rest →
      Valid item ∧ input = encode item ++ rest)
    (bad_append : ∀ {input error} (more : List β),
      front input = .bad error → front (input ++ more) = .bad error) :
    Codec β τ ε where
  front := front
  front_nil := front_nil
  frame_shrinks := by
    intro input item rest h
    obtain ⟨_, rfl⟩ := frame_encode h
    have := List.length_pos_of_ne_nil (encode_ne_nil item)
    simp only [List.length_append]
    omega
  frame_append := by
    intro input item rest more h
    obtain ⟨hvalid, rfl⟩ := frame_encode h
    rw [List.append_assoc]
    exact front_encode (rest ++ more) hvalid
  bad_append := bad_append
  Valid := Valid
  encode := encode
  front_encode := front_encode
  frame_encode := frame_encode

variable {β τ ε : Type} (c : Codec β τ ε)

def encodeAll (items : List τ) : List β := items.flatMap c.encode

variable {c}

@[simp] theorem encodeAll_nil : c.encodeAll [] = [] := rfl

@[simp] theorem encodeAll_cons (item : τ) (items : List τ) :
    c.encodeAll (item :: items) = c.encode item ++ c.encodeAll items := rfl

theorem scan_encodeAll {items : List τ} (rest : List β) (hvalid : ∀ item ∈ items, c.Valid item) :
    c.scan (c.encodeAll items ++ rest) = (items ++ (c.scan rest).1, (c.scan rest).2) := by
  induction items with
  | nil => rfl
  | cons item items ih =>
    obtain ⟨hitem, hitems⟩ := List.forall_mem_cons.mp hvalid
    rw [encodeAll_cons, List.append_assoc, Decoder.scan_frame (c.front_encode _ hitem), ih hitems]
    rfl

theorem encodeAll_scan (input : List β) : (∀ item ∈ (c.scan input).1, c.Valid item) ∧
      c.encodeAll (c.scan input).1 ++ (c.scan input).2 = input := by
  induction input using Decoder.scan_induction (d := c.toDecoder) with
  | frame hframe ih =>
    obtain ⟨hvalid, hinput⟩ := c.frame_encode hframe
    rw [Decoder.scan_frame hframe]
    constructor
    · exact List.forall_mem_cons.mpr ⟨hvalid, ih.1⟩
    · rw [encodeAll_cons, List.append_assoc, ih.2, hinput]
  | stop hstop => simp [Decoder.scan_of_not_frame hstop]

theorem prefix_scan {items : List τ} {input : List β} (hvalid : ∀ item ∈ items, c.Valid item)
    (hinitial : c.encodeAll items <+: input) : items <+: (c.scan input).1 := by
  obtain ⟨rest, rfl⟩ := hinitial
  rw [scan_encodeAll rest hvalid]
  exact List.prefix_append items _

end Codec

/-! ## Reads -/

/-- A property of every initial part of a run holds if and only if each step
meets its condition, given an invariant that tells so step by step. -/
theorem forall_prefix_iff {β : Type} {run : List β} {Holds Inv : List β → Prop}
    {Meets : List β → β → Prop} (start : Inv [])
    (sound : ∀ {part}, Inv part → Holds part)
    (step : ∀ {part next}, part ++ [next] <+: run → Inv part →
      (Holds (part ++ [next]) → Meets part next) ∧ (Meets part next → Inv (part ++ [next]))) :
    (∀ part, part <+: run → Holds part) ↔
      ∀ part next, part ++ [next] <+: run → Meets part next := by
  have hpart {part : List β} {next : β} (h : part ++ [next] <+: run) :
      part <+: run := (List.prefix_append part [next]).trans h
  constructor
  · intro hholds
    have hinv (part : List β) (hinitial : part <+: run) : Inv part := by
      induction part using List.reverseRecOn with
      | nil => exact start
      | append_singleton part next ih =>
        have hbefore := ih (hpart hinitial)
        have hstep := step hinitial hbefore
        exact hstep.2 (hstep.1 (hholds _ hinitial))
    intro part next hinitial
    exact (step hinitial (hinv part (hpart hinitial))).1 (hholds _ hinitial)
  · intro hmeets part hinitial
    apply sound
    induction part using List.reverseRecOn with
    | nil => exact start
    | append_singleton part next ih =>
      exact (step hinitial (ih (hpart hinitial))).2 (hmeets part next hinitial)

end Foundation.Framing
