namespace Lisplet

inductive LogLevel where
  | trace | debug | info | success | warning | error | critical
deriving DecidableEq, Repr

namespace LogLevel

def all : List LogLevel := [trace, debug, info, success, warning, error, critical]

def name : LogLevel → String
  | trace => "TRACE"
  | debug => "DEBUG"
  | info => "INFO"
  | success => "SUCCESS"
  | warning => "WARNING"
  | error => "ERROR"
  | critical => "CRITICAL"

-- Level names are read exactly as they are written.
def ofName? (name : String) : Option LogLevel := all.find? fun level => level.name == name

def severity : LogLevel → Nat
  | trace => 5
  | debug => 10
  | info => 20
  | success => 25
  | warning => 30
  | error => 40
  | critical => 50

end LogLevel

structure LogRecord where
  level : LogLevel
  message : String
deriving DecidableEq, Repr

-- The records at or above a level.
def logAtLeast (level : LogLevel) (log : List LogRecord) : List LogRecord :=
  log.filter fun record => level.severity ≤ record.level.severity

end Lisplet
