/-
The authority of a URI: its grammar, and that it is read in one way only.

`authority = [ userinfo "@" ] host [ ":" port ]`, where the host is an IP literal in
brackets or a registered name; the grammar's IPv4 addresses are registered names too.
The grammar is a relation between a text and its parts. That a text has at most one
reading rests on which characters do not occur where: no `@` outside the end of the
user information, no `:` in a registered name, no `]` inside the brackets.

Texts are lists of characters.
-/
import Mathlib.Data.List.Basic
import Mathlib.Data.List.Intervals
import Mathlib.Tactic.Basic
import Mathlib.Tactic.Common

set_option autoImplicit false

namespace UriAuthority

/-! ## Characters -/

/-- `HEXDIG`, of either case. -/
def is_hexdig (c : Char) : Bool :=
  c.isDigit || ('a' ≤ c && c ≤ 'f') || ('A' ≤ c && c ≤ 'F')

/-- `unreserved`. -/
def is_unreserved (c : Char) : Bool := c.isAlphanum || c ∈ ['-', '.', '_', '~']

/-- The apostrophe goes by its number. -/
def is_sub_delim (c : Char) : Bool :=
  c ∈ ['!', '$', '&', '(', ')', '*', '+', ',', ';', '='] || c.toNat = 39

/-- A text of characters that are `ok`, and of percent-encoded octets. -/
inductive Encoded (ok : Char → Bool) : List Char → Prop where
  | nil : Encoded ok []
  | char {c : Char} {s : List Char} (hc : ok c = true) (hs : Encoded ok s) : Encoded ok (c :: s)
  | pct {a b : Char} {s : List Char} (ha : is_hexdig a = true) (hb : is_hexdig b = true)
      (hs : Encoded ok s) : Encoded ok ('%' :: a :: b :: s)

/-! ## Hosts -/

/-- `reg-name`. -/
def RegName : List Char → Prop := Encoded fun c => is_unreserved c || is_sub_delim c

/-- The number that a text of digits stands for. -/
def decimal (s : List Char) : ℕ := s.foldl (fun n c => 10 * n + (c.toNat - '0'.toNat)) 0

/-- `dec-octet`: at most 255, without leading zeros. -/
def is_dec_octet (s : List Char) : Bool :=
  s ≠ [] && s.all (·.isDigit) && decimal s ≤ 255 && (s.length = 1 || s.head? ≠ some '0')

/-- `IPv4address`. -/
inductive Ipv4 : List Char → Prop where
  | mk {a b c d : List Char} (ha : is_dec_octet a = true) (hb : is_dec_octet b = true)
      (hc : is_dec_octet c = true) (hd : is_dec_octet d = true) :
      Ipv4 (a ++ '.' :: b ++ '.' :: c ++ '.' :: d)

/-- `h16`. -/
def is_h16 (s : List Char) : Bool := s ≠ [] && s.length ≤ 4 && s.all is_hexdig

/-- `ls32`: the last two groups, or an IPv4 address in their place. -/
inductive Ls32 : List Char → Prop where
  | groups {a b : List Char} (ha : is_h16 a = true) (hb : is_h16 b = true) : Ls32 (a ++ ':' :: b)
  | ipv4 {s : List Char} (h : Ipv4 s) : Ls32 s

/-- `*( h16 ":" )`. -/
def each_colon (groups : List (List Char)) : List Char := groups.flatMap (· ++ [':'])

/-- At most `n` groups before a `::`, as in `[ *4( h16 ":" ) h16 ]` for five. -/
inductive Groups (n : ℕ) : List Char → Prop where
  | none : Groups n []
  | some {groups : List (List Char)} {last : List Char} (hlen : groups.length < n)
      (hg : ∀ g ∈ groups, is_h16 g = true) (hl : is_h16 last = true) :
      Groups n (each_colon groups ++ last)

/-- `IPv6address`. The lines of the grammar that differ in the number of groups alone are
one constructor: `::` stands for at least one group. -/
inductive Ipv6 : List Char → Prop where
  | full {groups : List (List Char)} {last : List Char} (hlen : groups.length = 6)
      (hg : ∀ g ∈ groups, is_h16 g = true) (hl : Ls32 last) : Ipv6 (each_colon groups ++ last)
  | elided_ls32 {n : ℕ} {left last : List Char} {right : List (List Char)}
      (hlen : n + right.length ≤ 5) (hleft : Groups n left)
      (hright : ∀ g ∈ right, is_h16 g = true) (hl : Ls32 last) :
      Ipv6 (left ++ ':' :: ':' :: (each_colon right ++ last))
  | elided_h16 {left last : List Char} (hleft : Groups 6 left) (hl : is_h16 last = true) :
      Ipv6 (left ++ ':' :: ':' :: last)
  | elided {left : List Char} (hleft : Groups 7 left) : Ipv6 (left ++ [':', ':'])

/-- `IPvFuture`. -/
inductive IpvFuture : List Char → Prop where
  | mk {v : Char} {version address : List Char} (hv : v = 'v' ∨ v = 'V') (hne : version ≠ [])
      (hversion : version.all is_hexdig = true) (hne' : address ≠ [])
      (haddress : address.all (fun c => is_unreserved c || is_sub_delim c || c = ':') = true) :
      IpvFuture (v :: version ++ '.' :: address)

/-- `IP-literal`, or a registered name. -/
inductive Host : List Char → Prop where
  | ipv6 {s : List Char} (h : Ipv6 s) : Host ('[' :: s ++ [']'])
  | future {s : List Char} (h : IpvFuture s) : Host ('[' :: s ++ [']'])
  | reg_name {s : List Char} (h : RegName s) : Host s

/-! ## Authorities -/

/-- The parts of an authority. -/
structure Parts where
  userinfo : Option (List Char)
  host : List Char
  port : Option (List Char)
  deriving DecidableEq, Repr

/-- The parts, put together. -/
def Parts.text (p : Parts) : List Char :=
  p.userinfo.elim [] (· ++ ['@']) ++ (p.host ++ p.port.elim [] (':' :: ·))

/-- `a` is an authority with the parts `p`. -/
structure Reads (a : List Char) (p : Parts) : Prop where
  text : p.text = a
  userinfo : ∀ u, p.userinfo = some u →
    Encoded (fun c => is_unreserved c || is_sub_delim c || c = ':') u
  host : Host p.host
  port : ∀ d, p.port = some d → d.all (·.isDigit) = true

/-! ## Which characters do not occur -/

/-- An excluded character is not a hexadecimal digit either. -/
theorem Encoded.not_mem {ok : Char → Bool} {s : List Char} {x : Char} (h : Encoded ok s)
    (hok : ok x = false) (hhex : is_hexdig x = false) (hpct : x ≠ '%') : x ∉ s := by
  induction h with
  | nil => exact List.not_mem_nil
  | char hc hs ih =>
      rintro (_ | ⟨_, hx⟩)
      · rw [hok] at hc
        cases hc
      · exact ih hx
  | pct ha hb hs ih =>
      rintro (_ | ⟨_, _ | ⟨_, _ | ⟨_, hx⟩⟩⟩)
      · exact hpct rfl
      · rw [hhex] at ha
        cases ha
      · rw [hhex] at hb
        cases hb
      · exact ih hx

/-- None of the delimiters of an authority is in a registered name. -/
theorem RegName.not_mem {s : List Char} (h : RegName s) :
    '@' ∉ s ∧ ':' ∉ s ∧ '[' ∉ s ∧ ']' ∉ s := by
  refine ⟨?_, ?_, ?_, ?_⟩ <;> exact Encoded.not_mem h (by decide) (by decide) (by decide)

/-- The characters of an IPv6 address. -/
def is_ipv6_char (c : Char) : Bool := is_hexdig c || c = ':' || c = '.'

/-- Digits and dots only, -/
theorem Ipv4.chars {s : List Char} (h : Ipv4 s) : ∀ c ∈ s, is_ipv6_char c = true := by
  have hoctet : ∀ {s : List Char}, is_dec_octet s = true → ∀ c ∈ s, is_ipv6_char c = true := by
    intro s h c hc
    simp only [is_dec_octet, Bool.and_eq_true, List.all_eq_true] at h
    simp [is_ipv6_char, is_hexdig, h.1.1.2 c hc]
  obtain ⟨ha, hb, hc, hd⟩ := h
  simp only [List.mem_append, List.mem_cons]
  have hdot : is_ipv6_char '.' = true := rfl
  grind

/-- or hexadecimal digits, -/
theorem is_h16.chars {s : List Char} (h : is_h16 s = true) : ∀ c ∈ s, is_ipv6_char c = true := by
  intro c hc
  simp only [is_h16, Bool.and_eq_true, List.all_eq_true] at h
  simp [is_ipv6_char, h.2 c hc]

/-- in the last two groups, -/
theorem Ls32.chars {s : List Char} (h : Ls32 s) : ∀ c ∈ s, is_ipv6_char c = true := by
  cases h with
  | groups ha hb =>
      intro c hc
      rcases List.mem_append.1 hc with hc | _ | ⟨_, hc⟩
      · exact is_h16.chars ha c hc
      · rfl
      · exact is_h16.chars hb c hc
  | ipv4 h => exact h.chars

/-- in the groups with their colons, -/
theorem each_colon_chars {groups : List (List Char)} (h : ∀ g ∈ groups, is_h16 g = true) :
    ∀ c ∈ each_colon groups, is_ipv6_char c = true := by
  intro c hc
  obtain ⟨g, hg, hc⟩ := List.mem_flatMap.1 hc
  rcases List.mem_append.1 hc with hc | hc
  · exact is_h16.chars (h g hg) c hc
  · rw [List.mem_singleton.1 hc]
    rfl

/-- on the left of a `::`, -/
theorem Groups.chars {n : ℕ} {s : List Char} (h : Groups n s) :
    ∀ c ∈ s, is_ipv6_char c = true := by
  cases h with
  | none => simp
  | some hlen hg hl =>
      exact List.forall_mem_append.2 ⟨each_colon_chars hg, is_h16.chars hl⟩

/-- and so in all of an IPv6 address. -/
theorem Ipv6.chars {s : List Char} (h : Ipv6 s) : ∀ c ∈ s, is_ipv6_char c = true := by
  have hcolon : is_ipv6_char ':' = true := rfl
  cases h with
  | full hlen hg hl => exact List.forall_mem_append.2 ⟨each_colon_chars hg, hl.chars⟩
  | elided_ls32 hlen hleft hright hl =>
      refine List.forall_mem_append.2 ⟨hleft.chars, List.forall_mem_cons.2 ⟨hcolon, ?_⟩⟩
      refine List.forall_mem_cons.2 ⟨hcolon, ?_⟩
      exact List.forall_mem_append.2 ⟨each_colon_chars hright, hl.chars⟩
  | elided_h16 hleft hl =>
      refine List.forall_mem_append.2 ⟨hleft.chars, List.forall_mem_cons.2 ⟨hcolon, ?_⟩⟩
      exact List.forall_mem_cons.2 ⟨hcolon, is_h16.chars hl⟩
  | elided hleft =>
      refine List.forall_mem_append.2 ⟨hleft.chars, List.forall_mem_cons.2 ⟨hcolon, ?_⟩⟩
      exact List.forall_mem_singleton.2 hcolon

/-- Whatever is not among these characters is not in it. -/
theorem Ipv6.not_mem {s : List Char} {x : Char} (h : Ipv6 s) (hx : is_ipv6_char x = false) :
    x ∉ s := by
  intro hmem
  rw [h.chars x hmem] at hx
  cases hx

/-- Each group has its colon. -/
theorem count_colon_each_colon (groups : List (List Char)) :
    groups.length ≤ (each_colon groups).count ':' := by
  induction groups with
  | nil => exact Nat.zero_le _
  | cons g groups ih =>
      simp only [each_colon, List.flatMap_cons, List.count_append, List.length_cons] at ih ⊢
      rw [List.count_singleton_self]
      omega

/-- An IPv6 address has two colons or more. -/
theorem Ipv6.two_colons {s : List Char} (h : Ipv6 s) : 2 ≤ s.count ':' := by
  cases h with
  | @full groups last hlen hg hl =>
      have hc := count_colon_each_colon groups
      rw [List.count_append]
      omega
  | elided_ls32 hlen hleft hright hl =>
      simp only [List.count_append, List.count_cons_self]
      omega
  | elided_h16 hleft hl =>
      simp only [List.count_append, List.count_cons_self]
      omega
  | elided hleft =>
      simp only [List.count_append, List.count_cons_self]
      omega

/-- An address of a later version does not close the bracket, nor is there an `@` in it. -/
theorem IpvFuture.not_mem {s : List Char} (h : IpvFuture s) : ']' ∉ s ∧ '@' ∉ s := by
  obtain ⟨hv, hne, hversion, hne', haddress⟩ := h
  rw [List.all_eq_true] at hversion haddress
  have hout : ∀ x : Char, x ≠ 'v' → x ≠ 'V' → x ≠ '.' → is_hexdig x = false →
      (is_unreserved x || is_sub_delim x || decide (x = ':')) = false →
      ∀ {v : Char} {version address : List Char}, (v = 'v' ∨ v = 'V') →
      (∀ c ∈ version, is_hexdig c = true) →
      (∀ c ∈ address, (is_unreserved c || is_sub_delim c || decide (c = ':')) = true) →
      x ∉ v :: version ++ '.' :: address := by
    grind
  exact ⟨hout _ (by decide) (by decide) (by decide) (by decide) (by decide) hv hversion haddress,
    hout _ (by decide) (by decide) (by decide) (by decide) (by decide) hv hversion haddress⟩

/-- A host is in brackets, or has neither brackets nor colons. -/
theorem Host.shape {s : List Char} (h : Host s) :
    '@' ∉ s ∧ ((∃ x, s = '[' :: x ++ [']'] ∧ ']' ∉ x) ∨ ':' ∉ s ∧ '[' ∉ s) := by
  cases h with
  | @ipv6 x h =>
      refine ⟨?_, .inl ⟨x, rfl, h.not_mem rfl⟩⟩
      simpa using h.not_mem (rfl : is_ipv6_char '@' = false)
  | @future x h =>
      obtain ⟨hclose, hat⟩ := h.not_mem
      exact ⟨by simpa using hat, .inl ⟨x, rfl, hclose⟩⟩
  | reg_name h =>
      obtain ⟨hat, hcolon, hopen, -⟩ := RegName.not_mem h
      exact ⟨hat, .inr ⟨hcolon, hopen⟩⟩

/-- A port has digits only. -/
theorem not_mem_of_digits {d : List Char} {x : Char} (h : d.all (·.isDigit) = true)
    (hx : x.isDigit = false) : x ∉ d := by
  intro hmem
  rw [List.all_eq_true.1 h x hmem] at hx
  cases hx

/-! ## One reading only -/

/-- The first occurrence of a character splits a text in one way. -/
theorem split_first {x : Char} {s s' t t' : List Char} (hs : x ∉ s) (hs' : x ∉ s')
    (h : s ++ x :: t = s' ++ x :: t') : s = s' ∧ t = t' := by
  induction s generalizing s' with
  | nil =>
      cases s' with
      | nil => exact ⟨rfl, (List.cons.inj h).2⟩
      | cons c s' =>
          have hc : x = c := (List.cons.inj h).1
          exact absurd (hc ▸ List.mem_cons_self) hs'
  | cons c s ih =>
      cases s' with
      | nil =>
          have hc : c = x := (List.cons.inj h).1
          exact absurd (hc ▸ List.mem_cons_self) hs
      | cons c' s' =>
          obtain ⟨rfl, hrest⟩ := List.cons.inj h
          obtain ⟨rfl, rfl⟩ := ih (fun hm => hs (List.mem_cons_of_mem _ hm))
            (fun hm => hs' (List.mem_cons_of_mem _ hm)) hrest
          exact ⟨rfl, rfl⟩

/-- The part after the user information. -/
def Parts.rest (p : Parts) : List Char := p.host ++ p.port.elim [] (':' :: ·)

/-- Behind the user information there is no `@`, -/
theorem Reads.at_not_mem_rest {a : List Char} {p : Parts} (h : Reads a p) : '@' ∉ p.rest := by
  unfold Parts.rest
  rw [List.mem_append]
  rintro (hm | hm)
  · exact h.host.shape.1 hm
  · cases hp : p.port with
    | none => simp [hp] at hm
    | some d =>
        rw [hp] at hm
        rcases List.mem_cons.1 hm with hm | hm
        · cases hm
        · exact not_mem_of_digits (h.port d hp) rfl hm

/-- so the text is cut at its only one, -/
theorem Reads.text_eq {a : List Char} {p : Parts} (h : Reads a p) :
    a = p.userinfo.elim [] (· ++ ['@']) ++ p.rest := h.text.symm

/-- and it has one exactly if there is user information. -/
theorem Reads.at_mem_iff {a : List Char} {p : Parts} (h : Reads a p) :
    '@' ∈ a ↔ p.userinfo.isSome := by
  rw [h.text_eq]
  cases p.userinfo with
  | none => simpa using h.at_not_mem_rest
  | some u => simp

/-- A port is told from none by its colon, and from another by its digits. -/
theorem elim_port_inj {p q : Option (List Char)}
    (h : p.elim [] (':' :: ·) = q.elim [] (':' :: ·)) : p = q := by
  cases p with
  | none =>
      cases q with
      | none => rfl
      | some e => cases h
  | some d =>
      cases q with
      | none => cases h
      | some e => exact congrArg some (List.cons.inj h).2

/-- A text that starts with a bracket has its host in brackets. -/
theorem Host.bracketed_of_rest {s t : List Char} {port : Option (List Char)} (h : Host s)
    (heq : s ++ port.elim [] (':' :: ·) = '[' :: t) : ∃ x, s = '[' :: x ++ [']'] ∧ ']' ∉ x := by
  rcases h.shape.2 with hb | ⟨-, hopen⟩
  · exact hb
  · cases s with
    | nil =>
        cases port with
        | none => cases heq
        | some d => cases heq
    | cons c s =>
        have hc : c = '[' := (List.cons.inj heq).1
        exact absurd (hc ▸ List.mem_cons_self) hopen

/-- A host and a port are told apart by the end of the brackets, or by the colon. -/
theorem rest_inj {p q : Parts} (hp : Host p.host) (hq : Host q.host) (h : p.rest = q.rest) :
    p.host = q.host ∧ p.port = q.port := by
  unfold Parts.rest at h
  -- both in brackets
  have hin : ∀ {p q : Parts} {x : List Char}, Host q.host → p.host = '[' :: x ++ [']'] →
      ']' ∉ x → p.host ++ p.port.elim [] (':' :: ·) = q.host ++ q.port.elim [] (':' :: ·) →
      p.host = q.host ∧ p.port = q.port := by
    intro p q x hq hx hclose h
    rw [hx] at h
    obtain ⟨y, hy, hclose'⟩ := hq.bracketed_of_rest h.symm
    rw [hy] at h
    have hsplit : x ++ ']' :: p.port.elim [] (':' :: ·)
        = y ++ ']' :: q.port.elim [] (':' :: ·) := by
      simpa using h
    obtain ⟨rfl, hport⟩ := split_first hclose hclose' hsplit
    exact ⟨hx.trans hy.symm, elim_port_inj hport⟩
  rcases hp.shape.2 with ⟨x, hx, hclose⟩ | ⟨hcolon, -⟩
  · exact hin hq hx hclose h
  rcases hq.shape.2 with ⟨y, hy, hclose⟩ | ⟨hcolon', -⟩
  · obtain ⟨h₁, h₂⟩ := hin hp hy hclose h.symm
    exact ⟨h₁.symm, h₂.symm⟩
  -- none of them: the colon is the port's
  cases hpp : p.port with
  | none =>
      cases hqp : q.port with
      | none =>
          rw [hpp, hqp] at h
          exact ⟨by simpa using h, rfl⟩
      | some e =>
          rw [hpp, hqp, Option.elim_none, List.append_nil] at h
          exact absurd (h ▸ List.mem_append_right _ List.mem_cons_self) hcolon
  | some d =>
      cases hqp : q.port with
      | none =>
          rw [hpp, hqp, Option.elim_none, List.append_nil] at h
          exact absurd (h ▸ List.mem_append_right _ List.mem_cons_self) hcolon'
      | some e =>
          rw [hpp, hqp] at h
          obtain ⟨h₁, h₂⟩ := split_first hcolon hcolon' h
          exact ⟨h₁, congrArg some h₂⟩

/-- **An authority is read in one way.** -/
theorem Reads.unique {a : List Char} {p q : Parts} (hp : Reads a p) (hq : Reads a q) : p = q := by
  have hsome : p.userinfo.isSome ↔ q.userinfo.isSome := hp.at_mem_iff.symm.trans hq.at_mem_iff
  have heq := hp.text_eq.symm.trans hq.text_eq
  have hinfo : p.userinfo = q.userinfo ∧ p.rest = q.rest := by
    cases hpu : p.userinfo with
    | none =>
        rw [hpu] at hsome
        obtain hqu : q.userinfo = none := by simpa using hsome
        rw [hpu, hqu] at heq
        exact ⟨hqu.symm, by simpa using heq⟩
    | some u =>
        rw [hpu] at hsome
        obtain ⟨v, hqu⟩ := Option.isSome_iff_exists.1 (hsome.1 rfl)
        rw [hpu, hqu] at heq
        have hu := Encoded.not_mem (x := '@') (hp.userinfo u hpu)
          (by decide) (by decide) (by decide)
        have hv := Encoded.not_mem (x := '@') (hq.userinfo v hqu)
          (by decide) (by decide) (by decide)
        obtain ⟨rfl, hrest⟩ := split_first hu hv (by simpa using heq)
        exact ⟨hqu.symm, hrest⟩
  obtain ⟨hhost, hport⟩ := rest_inj hp.host hq.host hinfo.2
  cases p
  cases q
  simp_all

/-! ## Addresses without their brackets -/

/-- A text with two colons or more, and neither `@` nor brackets, is no authority. -/
theorem not_reads_of_two_colons {a : List Char} (hat : '@' ∉ a) (hopen : '[' ∉ a)
    (hcolons : 2 ≤ a.count ':') (p : Parts) : ¬ Reads a p := by
  intro h
  have hu : p.userinfo = none := by
    rw [h.at_mem_iff] at hat
    simpa using hat
  have ha : a = p.host ++ p.port.elim [] (':' :: ·) := by
    have := h.text_eq
    rwa [hu] at this
  rcases h.host.shape.2 with ⟨x, hx, -⟩ | ⟨hcolon, -⟩
  · rw [ha, hx] at hopen
    exact hopen List.mem_cons_self
  · rw [ha, List.count_append, List.count_eq_zero_of_not_mem hcolon] at hcolons
    cases hp : p.port with
    | none =>
        rw [hp] at hcolons
        simp at hcolons
    | some d =>
        have hd := not_mem_of_digits (x := ':') (h.port d hp) rfl
        rw [hp, Option.elim_some, List.count_cons_self, List.count_eq_zero_of_not_mem hd] at hcolons
        omega

end UriAuthority
