/-
The endpoint of the exchange carrier (`src/lib.rs`, `host_of`, `exchange_endpoint`):
what is dialled, the name TLS is given, and the authority of the requests.

An address is `host:port`, an IPv6 host in brackets. `host_of` takes the host out of
it without its brackets, which is the form the TLS name has; the authority is built
from the same text.

`str`s are lists of characters. `ServerName::try_from` is a parameter: which names TLS
takes, and the text of its error.
-/
import Mathlib.Data.List.DropRight
import Mathlib.Tactic.Basic
import Mathlib.Tactic.Common
import ZmuxPy.Pyo3
import ZmuxPy.UriAuthority

set_option autoImplicit false

namespace ZmuxPy.ExchangeAuthority

open Pyo3 UriAuthority

/-! ## `str` -/

/-- `s.rsplit_once(c)`: before and after the last `c`. -/
def rsplit_once (c : Char) : List Char → Option (List Char × List Char)
  | [] => none
  | x :: s =>
    match rsplit_once c s with
    | some (before, after) => some (x :: before, after)
    | none => if x = c then some ([], s) else none

/-- `s.trim_start_matches(c)`: all of them, not one. -/
def trim_start_matches (c : Char) (s : List Char) : List Char := s.dropWhile (· = c)

/-- `s.trim_end_matches(c)`, from the other end. -/
def trim_end_matches (c : Char) (s : List Char) : List Char := s.rdropWhile (· = c)

/-- Without a `c` there is nothing to split at. -/
theorem rsplit_once_eq_none {c : Char} {s : List Char} (h : c ∉ s) : rsplit_once c s = none := by
  induction s with
  | nil => rfl
  | cons x s ih =>
      rw [List.mem_cons, not_or] at h
      rw [rsplit_once, ih h.2]
      exact if_neg (Ne.symm h.1)

/-- The last `c` is the one that none follows. -/
theorem rsplit_once_append {c : Char} {t : List Char} (s : List Char) (h : c ∉ t) :
    rsplit_once c (s ++ c :: t) = some (s, t) := by
  induction s with
  | nil =>
      rw [List.nil_append, rsplit_once, rsplit_once_eq_none h]
      exact if_pos rfl
  | cons x s ih => rw [List.cons_append, rsplit_once, ih]

/-- Nothing is trimmed off a text without a `c`, -/
theorem trim_start_matches_eq_self {c : Char} {s : List Char} (h : c ∉ s) :
    trim_start_matches c s = s := by
  cases s with
  | nil => rfl
  | cons x s =>
      have hx : x ≠ c := fun hx => h (hx ▸ List.mem_cons_self)
      exact List.dropWhile_cons_of_neg (by simpa using hx)

/-- at its end either. -/
theorem trim_end_matches_eq_self {c : Char} {s : List Char} (h : c ∉ s) :
    trim_end_matches c s = s := by
  refine List.rdropWhile_eq_self_iff.2 fun hne => ?_
  have hx : s.getLast hne ≠ c := fun hx => h (hx ▸ List.getLast_mem hne)
  simpa using hx

/-! ## The source's functions -/

/-- `host_of`: the host part of `host:port`, without IPv6 brackets. -/
def host_of (addr : List Char) : List Char :=
  let host := (rsplit_once ':' addr).elim addr Prod.fst
  trim_end_matches ']' (trim_start_matches '[' host)

/-- `ExchangeEndpoint`, as far as it goes to the carrier: with TLS or without. -/
inductive ExchangeEndpoint where
  | tcp (addr : List Char)
  /-- Dials `addr`, gives TLS the `name`, and sends requests to `authority`. -/
  | tls (addr name authority : List Char)
  deriving DecidableEq, Repr

/-- The port that an authority leaves out. -/
def https_port : List Char := ['4', '4', '3']

/-- `exchange_endpoint(addr, tls, server_name)`. -/
def exchange_endpoint (try_from : List Char → Except String Unit) (addr : List Char) (tls : Bool)
    (server_name : Option (List Char)) : PyResult ExchangeEndpoint :=
  if tls then
    let host := server_name.getD (host_of addr)
    match try_from host with
    | .error e => .error (.value_error e)
    | .ok () =>
      let port := (rsplit_once ':' addr).elim https_port Prod.snd
      let authority := if port = https_port then host else host ++ ':' :: port
      .ok (.tls addr host authority)
  else .ok (.tcp addr)

/-! ## The servers an address names -/

/-- A server: by a name (a DNS name or an IPv4 literal is one), or by an IPv6 literal. -/
inductive Server where
  | named (name : {s // RegName s})
  | ipv6 (literal : {s // Ipv6 s})

/-- Letters, digits, hyphens and dots, as DNS names and IPv4 literals are made of. -/
theorem regName_of_unreserved {s : List Char} (h : s.all is_unreserved = true) : RegName s := by
  induction s with
  | nil => exact .nil
  | cons c s ih =>
      rw [List.all_cons, Bool.and_eq_true] at h
      refine .char ?_ (ih h.2)
      rw [h.1]
      rfl

/-- As a host is written in an address. -/
def Server.host : Server → List Char
  | .named name => name
  | .ipv6 literal => '[' :: literal ++ [']']

/-- The host without brackets. -/
def Server.bare : Server → List Char
  | .named name => name
  | .ipv6 literal => literal

/-- A decimal port. -/
def Port : Type := {d : List Char // d ≠ [] ∧ d.all (·.isDigit) = true}

/-- `host:port`, as the callers give it. -/
def Server.address (s : Server) (port : Port) : List Char := s.host ++ ':' :: port.1

/-- `a` is an authority, is read in one way only, and so read names the host and the
port; one without a port means 443. -/
def Names (a host port : List Char) : Prop :=
  ∃ p, (∀ q, Reads a q ↔ q = p) ∧ p.userinfo = none ∧ p.host = host
    ∧ p.port.getD https_port = port

/-- So the last colon of an address is the one in front of the port. -/
theorem Port.colon_not_mem (port : Port) : ':' ∉ port.1 := not_mem_of_digits port.2.2 rfl

/-- `host_of` finds the host and takes its brackets off. -/
theorem host_of_address (s : Server) (port : Port) : host_of (s.address port) = s.bare := by
  unfold host_of Server.address
  rw [rsplit_once_append _ port.colon_not_mem]
  simp only [Option.elim_some]
  cases s with
  | named name =>
      obtain ⟨-, -, hopen, hclose⟩ := RegName.not_mem name.2
      rw [Server.host, trim_start_matches_eq_self hopen, trim_end_matches_eq_self hclose]
      rfl
  | ipv6 literal =>
      have hopen := literal.2.not_mem (rfl : is_ipv6_char '[' = false)
      have hclose := literal.2.not_mem (rfl : is_ipv6_char ']' = false)
      have hstart : trim_start_matches '[' (Server.ipv6 literal).host = literal.1 ++ [']'] := by
        have hrest : '[' ∉ literal.1 ++ [']'] := by simpa using hopen
        rw [← trim_start_matches_eq_self hrest]
        exact List.dropWhile_cons_of_pos rfl
      rw [hstart, trim_end_matches, List.rdropWhile_concat_pos _ _ _ rfl]
      exact trim_end_matches_eq_self hclose

/-- The authority of an address, over TLS and without a server name. -/
def authority (s : Server) (port : Port) : List Char :=
  if port.1 = https_port then s.bare else s.bare ++ ':' :: port.1

/-- **What is dialled**: the address as it was given, with the bare host for TLS and the
authority above. -/
theorem exchange_endpoint_address (try_from : List Char → Except String Unit) (s : Server)
    (port : Port) :
    exchange_endpoint try_from (s.address port) true none
      = match try_from s.bare with
        | .error e => .error (.value_error e)
        | .ok () => .ok (.tls (s.address port) s.bare (authority s port)) := by
  have hport : rsplit_once ':' (s.address port) = some (s.host, port.1) :=
    rsplit_once_append _ port.colon_not_mem
  simp only [exchange_endpoint, host_of_address, hport, Option.getD_none, Option.elim_some,
    if_true]
  rfl

/-- It is enough to read it in one way: there is no other. -/
theorem names_of_reads {a host port : List Char} {p : Parts} (h : Reads a p)
    (hu : p.userinfo = none) (hh : p.host = host) (hp : p.port.getD https_port = port) :
    Names a host port := by
  refine ⟨p, fun q => ⟨fun hq => hq.unique h, ?_⟩, hu, hh, hp⟩
  rintro rfl
  exact h

/-- A name is a host of its own, with or without a port. -/
theorem names_authority_named (name : {s // RegName s}) (port : Port) :
    Names (authority (.named name) port) name port.1 := by
  unfold authority
  by_cases hp : port.1 = https_port
  · rw [if_pos hp]
    refine @names_of_reads _ _ _ ⟨none, name, none⟩ ⟨?_, ?_, .reg_name name.2, ?_⟩ rfl rfl hp.symm
    · simp [Parts.text, Server.bare]
    · rintro u ⟨⟩
    · rintro d ⟨⟩
  · rw [if_neg hp]
    refine @names_of_reads _ _ _ ⟨none, name, some port.1⟩ ⟨rfl, ?_, .reg_name name.2, ?_⟩
      rfl rfl rfl
    · rintro u ⟨⟩
    · rintro d ⟨⟩
      exact port.2.2

/-- An IPv6 literal without its brackets is no host, and its colons are no port's. -/
theorem not_reads_authority_ipv6 (literal : {s // Ipv6 s}) (port : Port) (p : Parts) :
    ¬ Reads (authority (.ipv6 literal) port) p := by
  have hat := literal.2.not_mem (rfl : is_ipv6_char '@' = false)
  have hopen := literal.2.not_mem (rfl : is_ipv6_char '[' = false)
  have hcolons := literal.2.two_colons
  have hat' : '@' ∉ port.1 := not_mem_of_digits port.2.2 rfl
  have hopen' : '[' ∉ port.1 := not_mem_of_digits port.2.2 rfl
  simp only [authority, Server.bare]
  by_cases hp : port.1 = https_port
  · rw [if_pos hp]
    exact not_reads_of_two_colons hat hopen hcolons p
  · rw [if_neg hp]
    refine not_reads_of_two_colons (by simp [hat, hat']) (by simp [hopen, hopen']) ?_ p
    rw [List.count_append]
    omega

/-- **When the authority names the server that is dialled.** For every server and every
port, over TLS and without a server name: the endpoint dials the address, TLS gets the
host without brackets, and the authority is one that names the server and its port
exactly if the server goes by a name (or an IPv4 literal); the authority of an IPv6
literal is none at all. -/
theorem authority_names_server_iff (s : Server) (port : Port) :
    ∃ authority,
      (∀ try_from, exchange_endpoint try_from (s.address port) true none
        = match try_from s.bare with
          | .error e => .error (.value_error e)
          | .ok () => .ok (.tls (s.address port) s.bare authority))
      ∧ (Names authority s.host port.1 ↔ ∃ name, s = .named name)
      ∧ ((∃ p, Reads authority p) ↔ ∃ name, s = .named name) := by
  refine ⟨authority s port, fun try_from => exchange_endpoint_address try_from s port, ?_⟩
  cases s with
  | named name =>
      have hnames := names_authority_named name port
      have hreads : ∃ p, Reads (authority (.named name) port) p := by
        obtain ⟨p, hp, -⟩ := hnames
        exact ⟨p, (hp p).2 rfl⟩
      exact ⟨iff_of_true hnames ⟨name, rfl⟩, iff_of_true hreads ⟨name, rfl⟩⟩
  | ipv6 literal =>
      have hnot := not_reads_authority_ipv6 literal port
      have hnamed : ¬ ∃ name, Server.ipv6 literal = .named name := by
        rintro ⟨name, ⟨⟩⟩
      refine ⟨iff_of_false ?_ hnamed, iff_of_false ?_ hnamed⟩
      · rintro ⟨p, hp, -⟩
        exact hnot p ((hp p).2 rfl)
      · rintro ⟨p, hp⟩
        exact hnot p hp

/-- `localhost`. -/
def localhost : Server :=
  .named ⟨['l', 'o', 'c', 'a', 'l', 'h', 'o', 's', 't'], regName_of_unreserved (by decide)⟩

/-- The port 8443. -/
def port_8443 : Port := ⟨['8', '4', '4', '3'], by decide, by decide⟩

/-- The theorem at a server by its name, `localhost:8443`. -/
theorem authority_names_server_iff_localhost :
    ∃ authority,
      (∀ try_from, exchange_endpoint try_from (localhost.address port_8443) true none
        = match try_from localhost.bare with
          | .error e => .error (.value_error e)
          | .ok () => .ok (.tls (localhost.address port_8443) localhost.bare authority))
      ∧ (Names authority localhost.host port_8443.1 ↔ ∃ name, localhost = .named name)
      ∧ ((∃ p, Reads authority p) ↔ ∃ name, localhost = .named name) :=
  authority_names_server_iff localhost port_8443

/-- The loopback address. -/
theorem ipv6_loopback : Ipv6 [':', ':', '1'] :=
  .elided_h16 .none (by decide)

/-- `[::1]:8443`, a bracketed IPv6 literal and a decimal port: the requests go to `::1:8443`,
which is no authority. -/
theorem ipv6_authority_unreadable :
    exchange_endpoint (fun _ => .ok ()) ['[', ':', ':', '1', ']', ':', '8', '4', '4', '3'] true none
        = .ok (.tls ['[', ':', ':', '1', ']', ':', '8', '4', '4', '3'] [':', ':', '1']
            [':', ':', '1', ':', '8', '4', '4', '3'])
      ∧ Ipv6 [':', ':', '1']
      ∧ ∀ p, ¬ Reads [':', ':', '1', ':', '8', '4', '4', '3'] p :=
  ⟨by decide, ipv6_loopback,
    not_reads_of_two_colons (by decide) (by decide) (by decide)⟩

end ZmuxPy.ExchangeAuthority
