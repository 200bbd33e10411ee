import TransportStream.Text.Hex

/-!
# Errors

What can go wrong while a stream is read, decoded or written, each with the
words shown to a user.
-/

namespace TransportStream

inductive IoFailure where
  | interrupted
  | timedOut
  | nothingWritten
  | notFound
  | notDirectory
  | isDirectory
  | nameTooLong
  | nulInName
  | other (text : String)
  deriving DecidableEq, Repr

def IoFailure.message : IoFailure -> String
  | .interrupted => "operation interrupted"
  | .timedOut => "timed out"
  | .nothingWritten => "failed to write whole buffer"
  | .notFound => "No such file or directory (os error 2)"
  | .notDirectory => "Not a directory (os error 20)"
  | .isDirectory => "Is a directory (os error 21)"
  | .nameTooLong => "File name too long (os error 36)"
  | .nulInName => "file name contained an unexpected NUL byte"
  | .other text => text

inductive Missing where
  | programMap
  | audioVideoProgram
  | timestamps
  deriving DecidableEq, Repr

def Missing.message : Missing -> String
  | .programMap => "input ended before every PMT was seen"
  | .audioVideoProgram => "no AAC + MPEG-2 video program found"
  | .timestamps => "input ended before audio and video PTS were found"

inductive Malformation where
  | shortSectionHeader
  | shortPat
  | notPat
  | shortPmt
  | notPmt
  | longProgramInfo
  | shortPesHeader
  | noStartCode
  deriving DecidableEq, Repr

def Malformation.message : Malformation -> String
  | .shortSectionHeader => "short section header"
  | .shortPat => "PAT shorter than header + CRC"
  | .notPat => "table_id is not PAT"
  | .shortPmt => "PMT shorter than header + CRC"
  | .notPmt => "table_id is not PMT"
  | .longProgramInfo => "program_info_length overruns PMT"
  | .shortPesHeader => "short PES header"
  | .noStartCode => "bad PES start code"

inductive Error where
  | framing (found : UInt8)
  | endOfStream
  | discovery (missing : Missing)
  | implausibleDelay (ticks : UInt64)
  | malformed (reason : Malformation)
  | io (failure : IoFailure)
  deriving DecidableEq, Repr

namespace Error

def message : Error -> String
  | .framing found =>
      "sync byte is not 0x47 (found " ++ Text.hex2 found.toNat ++ ")"
  | .endOfStream => "end of stream"
  | .discovery missing => "discovery failed: " ++ missing.message
  | .implausibleDelay ticks =>
      s!"audio/video delay too large: {ticks.toNat} ticks"
  | .malformed reason => "malformed section: " ++ reason.message
  | .io failure => "I/O error: " ++ failure.message

def causes : Error -> List String
  | .io failure => [(Error.io failure).message, failure.message]
  | e => [e.message]

end Error
end TransportStream
