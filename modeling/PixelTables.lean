import PixelTables.Tile.Packing
import PixelTables.Embedded
import PixelTables.Session
import PixelTables.Main
import PixelTables.Proofs.Source.Injectivity
import PixelTables.Proofs.CommandLine.Acceptance
import PixelTables.Proofs.Process
import PixelTables.Proofs.Tile.Packing
import PixelTables.Proofs.Catalogue.Limits
import PixelTables.Proofs.Embedded
import PixelTables.Proofs.Host
import PixelTables.Proofs.Session
import PixelTables.Proofs.FileTree.Rewriting
import PixelTables.Proofs.Regeneration
import PixelTables.Proofs.Color.Order
import PixelTables.Proofs.Tile.Flipping
import PixelTables.Proofs.Source.LinePerEntry
import PixelTables.Proofs.Tile.PlanePairs
import PixelTables.Proofs.Catalogue.Refusals
import PixelTables.Proofs.CommandLine.Names
