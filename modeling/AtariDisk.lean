import AtariDisk.Boot
import AtariDisk.Bytes
import AtariDisk.Catalog
import AtariDisk.Chain
import AtariDisk.Console.Command
import AtariDisk.Console.Completion
import AtariDisk.Console.Execute
import AtariDisk.Console.HexDump
import AtariDisk.Console.HostFiles
import AtariDisk.Console.Loop
import AtariDisk.Console.Session
import AtariDisk.Console.Words
import AtariDisk.Container
import AtariDisk.DataSector
import AtariDisk.Directory.Basic
import AtariDisk.Directory.Entry
import AtariDisk.Directory.FileName
import AtariDisk.Directory.HostName
import AtariDisk.DiskPlan
import AtariDisk.Failure
import AtariDisk.Geometry
import AtariDisk.Header
import AtariDisk.Image.Basic
import AtariDisk.Image.Sectors
import AtariDisk.Image.Transaction
import AtariDisk.Main
import AtariDisk.Proofs.Boot
import AtariDisk.Proofs.Bytes
import AtariDisk.Proofs.Catalog
import AtariDisk.Proofs.Chain
import AtariDisk.Proofs.Console.Attempt
import AtariDisk.Proofs.Console.Commands
import AtariDisk.Proofs.Console.FreeCount
import AtariDisk.Proofs.Console.Queries
import AtariDisk.Proofs.Console.Sanity
import AtariDisk.Proofs.Console.Sessions
import AtariDisk.Proofs.Console.Words
import AtariDisk.Proofs.DataSector
import AtariDisk.Proofs.Directory.Codec
import AtariDisk.Proofs.Directory.Entry
import AtariDisk.Proofs.Directory.Grammar
import AtariDisk.Proofs.Directory.HostName
import AtariDisk.Proofs.Directory.Record
import AtariDisk.Proofs.Directory.Slots
import AtariDisk.Proofs.Directory.Table
import AtariDisk.Proofs.DiskPlan
import AtariDisk.Proofs.Geometry
import AtariDisk.Proofs.Header
import AtariDisk.Proofs.Header.Codec
import AtariDisk.Proofs.Header.Runs
import AtariDisk.Proofs.Image.Conversion
import AtariDisk.Proofs.Image.DeclaredSize
import AtariDisk.Proofs.Image.Lifecycle
import AtariDisk.Proofs.Image.Limits
import AtariDisk.Proofs.Image.Origin
import AtariDisk.Proofs.Image.Reopening
import AtariDisk.Proofs.Image.Runs
import AtariDisk.Proofs.Image.Sectors
import AtariDisk.Proofs.Image.Tiling
import AtariDisk.Proofs.Image.Transaction
import AtariDisk.Proofs.Image.Writes
import AtariDisk.Proofs.Outcome
import AtariDisk.Proofs.SectorMap
import AtariDisk.Proofs.SectorMap.Allocator
import AtariDisk.Proofs.SectorMap.Codec
import AtariDisk.Proofs.SectorMap.Drawing
import AtariDisk.Proofs.Text.Utf8
import AtariDisk.Proofs.Volume.Agreement
import AtariDisk.Proofs.Volume.Allocation
import AtariDisk.Proofs.Volume.Atomicity
import AtariDisk.Proofs.Volume.Blank
import AtariDisk.Proofs.Volume.Conversion
import AtariDisk.Proofs.Volume.Damage
import AtariDisk.Proofs.Volume.FileStore
import AtariDisk.Proofs.Volume.Footprint
import AtariDisk.Proofs.Volume.Format
import AtariDisk.Proofs.Volume.Layout
import AtariDisk.Proofs.Volume.Load
import AtariDisk.Proofs.Volume.Lookup
import AtariDisk.Proofs.Volume.Operations
import AtariDisk.Proofs.Volume.Placement
import AtariDisk.Proofs.Volume.Records
import AtariDisk.Proofs.Volume.Refinement
import AtariDisk.Proofs.Volume.Refusal
import AtariDisk.Proofs.Volume.Robustness
import AtariDisk.Proofs.Volume.Space
import AtariDisk.Proofs.Volume.Store
import AtariDisk.Proofs.Volume.Trail
import AtariDisk.Proofs.Volume.Update
import AtariDisk.Proofs.Volume.Walk
import AtariDisk.Proofs.Volume.WriteBack
import AtariDisk.SectorMap
import AtariDisk.SectorMap.Drawing
import AtariDisk.Text.Blank
import AtariDisk.Text.Case
import AtariDisk.Text.CaseTable
import AtariDisk.Text.Column
import AtariDisk.Text.Lossy
import AtariDisk.Text.Numeral
import AtariDisk.Text.Path
import AtariDisk.Text.Ranges
import AtariDisk.Volume.Basic
import AtariDisk.Volume.Files
import AtariDisk.Volume.Listing
import AtariDisk.Volume.Walk
import AtariDisk.Word
