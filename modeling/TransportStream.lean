import TransportStream.Main
import TransportStream.Host.Folder
import TransportStream.Proofs.Section.Units
import TransportStream.Proofs.Source.Delivery
import TransportStream.Proofs.Sink.Acceptance
import TransportStream.Proofs.Filter.Output
import TransportStream.Proofs.Packet.Payload
import TransportStream.Proofs.Filter.PatPackets
import TransportStream.Proofs.Filter.Conservation
import TransportStream.Proofs.Section.Splitting
import TransportStream.Proofs.Crc
import TransportStream.Proofs.Pat.Layout
import TransportStream.Proofs.Pat.Reduction
import TransportStream.Proofs.Pat.Runs
import TransportStream.Proofs.Pat.Consecutive
import TransportStream.Proofs.Pat.Carrying
import TransportStream.Proofs.Pat.RunReduction
import TransportStream.Proofs.Pat.RepeatedReduction
import TransportStream.Proofs.Filter.Runs
import TransportStream.Proofs.Filter.UnitSections
import TransportStream.Proofs.Table.Decoding
import TransportStream.Proofs.Filter.Announcements
import TransportStream.Proofs.Pes.Events
import TransportStream.Proofs.Pass.Agreement
import TransportStream.Proofs.Source.Replay
import TransportStream.Proofs.SecondPass
import TransportStream.Proofs.Discovery
import TransportStream.Proofs.Filter.Overtaking
import TransportStream.Proofs.Section.Transmission
import TransportStream.Proofs.Filter.Reading
import TransportStream.Proofs.Table.Entries
import TransportStream.Proofs.TableReport.Followed
import TransportStream.Proofs.TableReport
import TransportStream.Proofs.Delay.Timestamps
import TransportStream.Proofs.Source.Frames
import TransportStream.Proofs.Sink.Collection
import TransportStream.Proofs.Pass.Reads
import TransportStream.Proofs.Filter.Failures
import TransportStream.Proofs.Delay.Streams
import TransportStream.Proofs.Bounds.Access
import TransportStream.Proofs.Bounds.Packet
import TransportStream.Proofs.Bounds.Section
import TransportStream.Proofs.Bounds.Table
import TransportStream.Proofs.Bounds.Pes
import TransportStream.Proofs.Bounds.Reduction
import TransportStream.Proofs.Bounds.Filter
import TransportStream.Proofs.Bounds
import TransportStream.Proofs.Pmt.Positions
import TransportStream.Proofs.Pmt.Layout
import TransportStream.Proofs.Pes.Fields
import TransportStream.Proofs.Delay.Sequences
import TransportStream.Proofs.Delay
import TransportStream.Proofs.TableReport.Damage
import TransportStream.Proofs.Section.Buffer
import TransportStream.Proofs.Pass.Earliest
import TransportStream.Proofs.Discovery.Earliest
import TransportStream.Proofs.Filter.HeldRuns
import TransportStream.Proofs.Pes.Buffer
import TransportStream.Proofs.Discovery.History
import TransportStream.Proofs.Source.Requests
import TransportStream.Proofs.Descriptor
import TransportStream.Proofs.Packet.Parts
import TransportStream.Proofs.PidSet.Residues
