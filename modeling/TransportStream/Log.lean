/-!
# Log records

The library never prints.  A computation that has something to say returns its
log records beside its value, in the order in which they arise, and the value
never depends on them.
-/

namespace TransportStream

inductive Level where
  | error
  | warn
  | info
  | debug
  | trace
  deriving DecidableEq, Repr

namespace Level

def name : Level -> String
  | .error => "ERROR"
  | .warn => "WARN"
  | .info => "INFO"
  | .debug => "DEBUG"
  | .trace => "TRACE"

def rank : Level -> Nat
  | .error => 1
  | .warn => 2
  | .info => 3
  | .debug => 4
  | .trace => 5

end Level

inductive Topic where
  | packet
  | sections
  | pmt
  | decoder
  | pes
  | split
  | delay
  | report
  deriving DecidableEq, Repr

def Topic.path : Topic -> String
  | .packet => "mpegts_tools::packet"
  | .sections => "mpegts_tools::psi::section"
  | .pmt => "mpegts_tools::psi::pmt"
  | .decoder => "mpegts_tools::psi::decoder"
  | .pes => "mpegts_tools::pes"
  | .split => "mpegts_tools::split"
  | .delay => "mpegts_tools::delay"
  | .report => "mpegts_tools::report"

structure Record where
  level : Level
  topic : Topic
  text : String
  deriving DecidableEq, Repr

namespace Record

def debug (topic : Topic) (text : String) : Record :=
  ⟨.debug, topic, text⟩

def warn (topic : Topic) (text : String) : Record :=
  ⟨.warn, topic, text⟩

def line (r : Record) : String :=
  r.level.name ++ " " ++ r.topic.path ++ ": " ++ r.text

end Record

abbrev Log := Array Record

/-!
# Values with a log
-/

/-- A value together with the records that arose on the way to it. -/
structure Logged (α : Type) where
  value : α
  log : Log

namespace Logged

instance : Monad Logged where
  pure a := ⟨a, #[]⟩
  bind x f := ⟨(f x.value).value, x.log ++ (f x.value).log⟩

def note (r : Record) : Logged Unit :=
  ⟨(), #[r]⟩

def note? (r : Option Record) : Logged Unit :=
  ⟨(), r.toArray⟩

@[simp] theorem value_pure {α : Type} (a : α) : (pure a : Logged α).value = a :=
  rfl

@[simp] theorem log_pure {α : Type} (a : α) : (pure a : Logged α).log = #[] :=
  rfl

@[simp] theorem value_bind {α β : Type} (x : Logged α) (f : α -> Logged β) :
    (x >>= f).value = (f x.value).value := rfl

@[simp] theorem log_bind {α β : Type} (x : Logged α) (f : α -> Logged β) :
    (x >>= f).log = x.log ++ (f x.value).log := rfl

@[ext] theorem ext {α : Type} {x y : Logged α} (hvalue : x.value = y.value)
    (hlog : x.log = y.log) : x = y := by
  cases x
  cases y
  simp_all

theorem id_map {α : Type} (x : Logged α) : id <$> x = x := by
  apply ext
  · rfl
  · show x.log ++ #[] = x.log
    simp

theorem pure_bind {α β : Type} (a : α) (f : α -> Logged β) :
    (pure a >>= f) = f a := by
  apply ext
  · rfl
  · simp

theorem bind_assoc {α β γ : Type} (x : Logged α) (f : α -> Logged β)
    (g : β -> Logged γ) :
    x >>= f >>= g = x >>= fun a => f a >>= g := by
  apply ext
  · rfl
  · simp [Array.append_assoc]

instance : LawfulMonad Logged :=
  LawfulMonad.mk' Logged id_map pure_bind bind_assoc

theorem value_foldlM {α β : Type} (f : β -> α -> Logged β) (b : β)
    (l : List α) :
    (l.foldlM f b).value = l.foldl (fun b a => (f b a).value) b := by
  induction l generalizing b with
  | nil => rfl
  | cons a rest ih => simp [List.foldlM_cons, ih]

end Logged
end TransportStream
